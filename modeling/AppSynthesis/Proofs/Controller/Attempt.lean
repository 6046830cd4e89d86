/-
AppSynthesis.Proofs.Controller.Attempt — one attempt to write the App of an
install.

* `newApp_not_conflict`, `resolvePackage_not_conflict`, `Store.get_not_conflict`
  — of what an attempt asks for only the write itself can conflict.
* `id_newApp`, `find?_newApp` — an App that was made from the one read for an
  install is stored where that one is looked up, even when its own name and
  namespace were left as they are.
* `objection?_newApp` — so it is written exactly when what was read is still
  what is stored; nothing but a conflict stands against it.
-/
import AppSynthesis.Controller
import AppSynthesis.Proofs.Store.History
import AppSynthesis.Proofs.Synthesis.App

namespace AppSynthesis

/-! ## Errors that are no conflicts -/

/-- What stands against an owner is no conflict, and operators are told about it. -/
theorem Owner.controlOf_error {owner : Owner} {app : App} {scheme : Scheme} {e : Error}
    (h : owner.controlOf app scheme = .error e) : e.isConflict = false ∧ e.isReported = true := by
  unfold controlOf Scheme.kindOf checkNamespaces App.claim at h
  simp only [bind, Except.bind] at h
  split at h
  · rename_i hk
    split at hk <;> cases hk
    cases h
    exact ⟨rfl, rfl⟩
  · split at h
    · rename_i hn
      split at hn <;> cases hn
      cases h
      exact ⟨rfl, rfl⟩
    · split at h
      · split at h <;> cases h
        exact ⟨rfl, rfl⟩
      · cases h

theorem Annotations.ofValue_not_conflict {v : Value} {e : Error}
    (h : Annotations.ofValue v = .error e) : e.isConflict = false := by
  unfold Annotations.ofValue at h
  repeat' split at h
  all_goals cases h
  all_goals rfl

theorem isManuallyControlled_not_conflict {v : Value} {e : Error}
    (h : isManuallyControlled v = .error e) : e.isConflict = false := by
  unfold isManuallyControlled at h
  repeat' split at h
  all_goals cases h
  all_goals rfl

theorem carriedEntries_not_conflict {v : Value} {e : Error}
    (h : carriedEntries v = .error e) : e.isConflict = false := by
  unfold carriedEntries at h
  repeat' split at h
  all_goals cases h
  all_goals rfl

variable {existing : Option App} {install : PackageInstall} {package : Package}
  {options : Options}

/-- The synthesis never conflicts. -/
theorem newApp_not_conflict {e : Error}
    (h : newApp existing install package options = .error e) : e.isConflict = false := by
  rcases newApp_error_cases h with h | h | ⟨_, h⟩ | h
  · exact isManuallyControlled_not_conflict h
  · exact carriedEntries_not_conflict h
  · exact (Owner.controlOf_error h).1
  · exact Annotations.ofValue_not_conflict h

theorem resolvePackage_not_conflict {packages : List Package} {globalNamespace : Option String}
    {e : Error} (h : resolvePackage packages install globalNamespace = .error e) :
    e.isConflict = false := by
  unfold resolvePackage at h
  dsimp only at h
  repeat' split at h
  all_goals cases h
  all_goals rfl

theorem Store.get_not_conflict {s : Store} {id : ResourceId} {type : RecordType} {e : Error}
    (h : s.get id type = .error e) : e.isConflict = false := by
  unfold get at h
  repeat' split at h
  all_goals cases h
  all_goals rfl

/-! ## Where the App is written -/

/-- What was read for an install, as an App. -/
theorem Store.get_app {s : Store} {id : ResourceId} {answer : Option Resource}
    (h : s.get id .app = .ok answer) : answer = (answer.bind Resource.app?).map .app := by
  cases answer with
  | none => rfl
  | some obj =>
    obtain ⟨a, rfl⟩ := Store.app_of_get h
    rfl

/-- An App made from the one that was read has the identity of that one, or one that is
the same. -/
theorem id_newApp {s : Store} (hs : s.Sound) {answer : Option Resource}
    (hget : s.get install.appId .app = .ok answer) {desired : App}
    (hmade : newApp (answer.bind Resource.app?) install package options = .ok desired) :
    (Resource.app desired).id.isAtomic = true ∧
      (Resource.app desired).id.same install.appId = true := by
  obtain ⟨hid, hfind, _⟩ := Store.get_eq_ok hget
  rcases newApp_cases hmade with ⟨hmanual, hkept⟩ | ⟨_, _, _, _, _, _, rfl⟩
  · -- Under manual control the App keeps an identity that is merely the same.
    have hanswer := Store.get_app hget
    rcases hread : answer.bind Resource.app? with _ | a
    · rw [hread] at hmanual
      cases hmanual
    · rw [hread] at hkept hanswer
      obtain rfl : desired = a := hkept
      exact hs.same_of_find? hid (hfind.trans hanswer)
  · exact ⟨hid, ResourceId.same_self hid⟩

/-- So it is found where that one was. -/
theorem find?_newApp {s t : Store} (hs : s.Sound) (ht : t.Sound) {answer : Option Resource}
    (hget : s.get install.appId .app = .ok answer) {desired : App}
    (hmade : newApp (answer.bind Resource.app?) install package options = .ok desired) :
    (Resource.app desired).id.isAtomic = true ∧
      t.find? (Resource.app desired).id = t.find? install.appId := by
  obtain ⟨hatomic, hsame⟩ := id_newApp hs hget hmade
  exact ⟨hatomic, ht.find?_congr hatomic (Store.get_eq_ok hget).1 hsame⟩

/-- **An attempt succeeds exactly when nothing came in between**: an App made from
the one that was read is written when that one is still stored, and otherwise
it conflicts. -/
theorem objection?_newApp {s t : Store} {written : List App} (hs : s.Sound)
    (hhistory : s.History written) (ht : t.Continues written) {answer : Option Resource}
    (hget : s.get install.appId .app = .ok answer) {desired : App}
    (hmade : newApp (answer.bind Resource.app?) install package options = .ok desired) :
    (t.objection? (.app desired) = none ∧ t.find? install.appId = answer) ∨
    (t.find? install.appId ≠ answer ∧
      ∃ e, t.objection? (.app desired) = some e ∧ e.isConflict = true) := by
  obtain ⟨htsound, more, hmore⟩ := ht
  obtain ⟨hatomic, hplace⟩ := find?_newApp hs htsound hget hmade
  have hanswer := Store.get_app hget
  have hread : ∀ a, answer.bind Resource.app? = some a → a ∈ written ++ more := by
    intro a ha
    rw [ha] at hanswer
    have hfind := (Store.get_eq_ok hget).2.1
    exact List.mem_append_left _ (hhistory.mem_of_find? (hfind.trans hanswer))
  have hversion : desired.resourceVersion = App.versionRead (answer.bind Resource.app?) := by
    rw [(newApp_kept hmade).version]
    cases answer.bind Resource.app? <;> rfl
  have hcheck := hmore.objection?_app htsound hread hversion hatomic
  rw [← hanswer, hplace] at hcheck
  split at hcheck
  · rename_i heq
    exact Or.inl ⟨hcheck, heq⟩
  · rename_i hne
    exact Or.inr ⟨hne, _, hcheck, rfl⟩

end AppSynthesis
