/-
AppSynthesis.Proofs.Synthesis.WellFormed — the synthesis of well-formed
resources.

* `newApp_reported`, `resolvePackage_reported` — of well-formed resources every
  error is one that operators are told about; nothing faults.
* `newApp_wellFormed` — the App that is made is well-formed, under the identity of
  the App of the install.
-/
import AppSynthesis.Proofs.Controller.Attempt
import AppSynthesis.Proofs.Store.WellFormed

namespace AppSynthesis

/-! ## Annotations -/

theorem isManuallyControlled_ok {v : Value} (h : v.isTextMap = true) :
    ∃ b, isManuallyControlled v = .ok b := by
  cases v <;> try cases h
  · exact ⟨false, rfl⟩
  · exact ⟨_, isManuallyControlled_map _ _⟩

/-- Annotations that are carried over have text keys. -/
theorem carriedEntries_ok {v : Value} (h : v.isTextMap = true) :
    ∃ entries, carriedEntries v = .ok entries ∧ (∀ e ∈ entries, e.1.isText = true) := by
  cases v <;> try cases h
  · exact ⟨[], rfl, by simp⟩
  · exact ⟨_, carriedEntries_map _ _, List.all_eq_true.mp h⟩

theorem Annotations.textEntries?_of_isText :
    ∀ {entries : Entries}, (∀ e ∈ entries, e.1.isText = true) →
      ∃ annotations, textEntries? entries = some annotations
  | [], _ => ⟨[], rfl⟩
  | (k, v) :: rest, h => by
    obtain ⟨annotations, ha⟩ :=
      textEntries?_of_isText fun e he => h e (List.mem_cons_of_mem _ he)
    have hk : k.isText = true := h (k, v) List.mem_cons_self
    unfold textEntries? at ha ⊢
    cases k <;> try cases hk
    simp [ha]

theorem Annotations.ofValue_ok {v : Value} (h : v.isTextMap = true) :
    ∃ annotations, Annotations.ofValue v = .ok annotations := by
  unfold Annotations.ofValue
  cases v <;> try cases h
  · exact ⟨[], rfl⟩
  · rename_i origin entries
    obtain ⟨annotations, ha⟩ := textEntries?_of_isText (List.all_eq_true.mp h)
    split
    · exact ⟨annotations, by simp [ha]⟩
    · exact ⟨[], rfl⟩

/-- Writing under a text key leaves all keys text. -/
theorem Entries.isText_insert {key : String} {value : Value} {entries : Entries}
    (h : ∀ e ∈ entries, e.1.isText = true) :
    ∀ e ∈ Entries.insert entries (.str key) value, e.1.isText = true := by
  intro e he
  rcases Entries.mem_insert he with rfl | he
  · rfl
  · exact h e he

theorem recordPackage_isTextMap {entries : Entries} (h : ∀ e ∈ entries, e.1.isText = true)
    (package : Package) : (recordPackage entries package).isTextMap = true :=
  List.all_eq_true.mpr (Entries.isText_insert (Entries.isText_insert h))

/-! ## The synthesis -/

variable {existing : Option App} {install : PackageInstall} {package : Package}
  {options : Options}

/-- Of well-formed resources every error of the synthesis is reported. -/
theorem newApp_reported (hexisting : (existing.getD {}).annotations.isTextMap = true)
    (hinstall : install.annotations.isTextMap = true) {e : Error}
    (h : newApp existing install package options = .error e) : e.isReported = true := by
  rcases newApp_error_cases h with h | h | ⟨_, h⟩ | h
  · obtain ⟨b, hb⟩ := isManuallyControlled_ok hexisting
    rw [hb] at h
    cases h
  · obtain ⟨entries, hentries, _⟩ := carriedEntries_ok hexisting
    rw [hentries] at h
    cases h
  · exact (Owner.controlOf_error h).2
  · obtain ⟨annotations, hannotations⟩ := Annotations.ofValue_ok hinstall
    rw [hannotations] at h
    cases h

theorem resolvePackage_reported (hns : install.ns.isText = true) {packages : List Package}
    {globalNamespace : Option String} {e : Error}
    (h : resolvePackage packages install globalNamespace = .error e) : e.isReported = true := by
  have hatomic : install.ns.isAtomic = true := Value.isAtomic_of_isText hns
  unfold resolvePackage at h
  simp only [hatomic, Bool.not_true, Bool.false_eq_true, if_false] at h
  repeat' split at h
  all_goals cases h
  all_goals rfl

/-- The App that is made is well-formed, and stands where the App of the install
does. -/
theorem newApp_wellFormed (hinstall : (Resource.packageInstall install).WellFormed)
    (hexisting : ∀ x, existing = some x →
      (Resource.app x).WellFormed ∧ (Resource.app x).id = install.appId) {a : App}
    (h : newApp existing install package options = .ok a) :
    (Resource.app a).WellFormed ∧ (Resource.app a).id = install.appId := by
  rcases newApp_cases h with ⟨hmanual, rfl⟩ | ⟨entries, _, _, hcarries, _, _, rfl⟩
  · rcases existing with _ | x
    · cases hmanual
    · exact hexisting x rfl
  · refine ⟨⟨hinstall.ns, hinstall.name, ?_⟩, rfl⟩
    have hmap : (existing.getD {}).annotations.isTextMap = true := by
      rcases existing with _ | x
      · rfl
      · exact (hexisting x rfl).1.annotations
    obtain ⟨entries', hentries, htext⟩ := carriedEntries_ok hmap
    obtain rfl := Except.ok.inj (hentries.symm.trans hcarries.carried)
    exact recordPackage_isTextMap htext package

end AppSynthesis
