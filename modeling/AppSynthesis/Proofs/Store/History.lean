/-
AppSynthesis.Proofs.Store.History — the versions that a store hands out over
its whole life.

* `Store.History s written` — `written` lists the Apps that were ever written
  to `s`, oldest first. The one in place `k` has the numeral of `k + 1` as its
  version, and every App that is stored is among them.
* `Store.Change.written` — the App that a change writes, if any, and
  `Store.History.apply`, that it comes last in the history and none is taken away:
  deleting and creating again never gives out a version twice.
* `Store.History.eq_of_version` — a version belongs to one App that was ever
  written, whatever its identity.
* `Store.History.objection?_app` — so the check of versions is exact: a write
  made from what was read passes it precisely when that is what is stored.

The history is kept beside the store, not in it. It exists for every store that
can be reached, and a statement about two moments of a run takes the history of
the later one.
-/
import AppSynthesis.Proofs.Store.Sound

namespace AppSynthesis

/-- The version of what was read, null when nothing was. -/
def App.versionRead (read : Option App) : Value := (read.map (·.resourceVersion)).getD .null

namespace Store

/-- The Apps that were ever written to a store, oldest first. -/
structure History (s : Store) (written : List App) : Prop where
  length : written.length = s.revision
  version : ∀ (k : Nat) (x : App), written[k]? = some x →
    x.resourceVersion = .str (Numeral.ofNat (k + 1))
  stored : ∀ e ∈ s.objects, ∀ x : App, e.2 = .app x → x ∈ written

theorem History.empty : History {} [] := ⟨rfl, by simp, by simp⟩

/-- A version belongs to one App that was ever written. -/
theorem History.eq_of_version {s : Store} {written : List App} (h : s.History written)
    {x y : App} (hx : x ∈ written) (hy : y ∈ written)
    (hv : x.resourceVersion = y.resourceVersion) : x = y := by
  obtain ⟨j, hj⟩ := List.mem_iff_getElem?.mp hx
  obtain ⟨k, hk⟩ := List.mem_iff_getElem?.mp hy
  rw [h.version j x hj, h.version k y hk, Value.str.injEq, Numeral.ofNat_inj] at hv
  obtain rfl : j = k := by omega
  exact Option.some.inj (hj.symm.trans hk)

/-- Every App that was ever written has a version. -/
theorem History.version_text {s : Store} {written : List App} (h : s.History written)
    {x : App} (hx : x ∈ written) : ∃ v, x.resourceVersion = .str v := by
  obtain ⟨k, hk⟩ := List.mem_iff_getElem?.mp hx
  exact ⟨_, h.version k x hk⟩

/-- Fewer objects have the same history. -/
theorem History.of_subset {s t : Store} {written : List App} (h : s.History written)
    (hr : t.revision = s.revision) (ho : t.objects ⊆ s.objects) : t.History written :=
  ⟨h.length.trans hr.symm, h.version, fun e he => h.stored e (ho he)⟩

/-- Writing what is no App leaves the history as it is. -/
theorem History.write_other {s : Store} {written : List App} (h : s.History written)
    {obj : Resource} (hobj : ∀ x, obj ≠ .app x) : (s.write obj).History written := by
  have hstamped : s.stamped obj = obj ∧ s.revisionAfter obj = s.revision := by
    cases obj with
    | app x => exact absurd rfl (hobj x)
    | packageInstall x => exact ⟨rfl, rfl⟩
    | package x => exact ⟨rfl, rfl⟩
  refine ⟨h.length.trans hstamped.2.symm, h.version, fun e he y hy => ?_⟩
  rcases mem_place he with ⟨h2, _⟩ | he
  · exact absurd (hstamped.1.symm.trans (h2.symm.trans hy)) (hobj y)
  · exact h.stored e he y hy

/-- Writing an App makes it the last of the history. -/
theorem History.write {s : Store} {written : List App} (h : s.History written)
    (obj : Resource) : (s.write obj).History (written ++ (s.stamped obj).app?.toList) := by
  cases obj with
  | app x =>
    refine ⟨?_, ?_, ?_⟩
    · rw [List.length_append, h.length]
      rfl
    · intro k y hy
      rw [List.getElem?_append] at hy
      split at hy
      · exact h.version k y hy
      · rename_i hk
        have hlen : k = written.length := by
          have := (List.getElem?_eq_some_iff.mp hy).1
          simp only [stamped, Resource.app?, Option.toList_some, List.length_singleton] at this
          omega
        subst hlen
        simp only [stamped, Resource.app?, Option.toList_some, Nat.sub_self,
          List.getElem?_cons_zero, Option.some.injEq] at hy
        rw [← hy, h.length]
    · intro e he y hy
      rcases mem_place he with ⟨h2, _⟩ | he
      · rw [h2, stamped, Resource.app.injEq] at hy
        exact List.mem_append_right _ (List.mem_singleton.mpr hy.symm)
      · exact List.mem_append_left _ (h.stored e he y hy)
  | packageInstall x =>
    exact (List.append_nil written).symm ▸ h.write_other fun y hy => by cases hy
  | package x =>
    exact (List.append_nil written).symm ▸ h.write_other fun y hy => by cases hy

/-- The App, if any, that a change writes. -/
def Change.written : Change → Store → List App
  | .add obj, s =>
    match (s.add obj).1 with
    | .ok (.stored x) => x.app?.toList
    | _ => []
  | .delete _, _ => []
  | .register _ _, _ => []
  | .unregister _ _, _ => []

/-- A change adds to the history what it writes, and takes nothing away. -/
theorem History.apply {s : Store} {written : List App} (hs : s.Sound)
    (h : s.History written) : ∀ c : Change, (c.apply s).History (written ++ c.written s)
  | .add obj => by
    simp only [Change.apply, Change.written]
    rcases add_cases hs.refusals obj with ⟨e, _, he⟩ | ⟨_, _, he⟩ | ⟨_, _, he⟩
    · simpa only [he, List.append_nil] using h
    · simpa only [he, List.append_nil] using h
    · simpa only [he] using h.write obj
  | .delete id => by
    rw [Change.written, List.append_nil]
    rcases delete_cases s id with he | he
    · rw [he]; exact h
    · rw [he]
      exact h.of_subset rfl List.eraseP_subset
  | .register _ _ => by
    rw [Change.written, List.append_nil]
    exact h.of_subset rfl (List.Subset.refl _)
  | .unregister _ _ => by
    rw [Change.written, List.append_nil]
    exact h.of_subset rfl (List.Subset.refl _)

/-- The store is sound, and its history begins with the given Apps. -/
def Continues (written : List App) (s : Store) : Prop :=
  s.Sound ∧ ∃ more, s.History (written ++ more)

theorem History.continues {s : Store} {written : List App} (h : s.History written)
    (hs : s.Sound) : s.Continues written :=
  ⟨hs, [], by rw [List.append_nil]; exact h⟩

theorem Continues.apply {written : List App} {s : Store} (h : s.Continues written)
    (c : Change) : (c.apply s).Continues written := by
  obtain ⟨hs, more, hmore⟩ := h
  exact ⟨hs.apply c, more ++ c.written s, by rw [← List.append_assoc]; exact hmore.apply hs c⟩

/-- Every store that can be reached has a history. -/
theorem Reached.history {allowed : Change → Prop} {s : Store} (h : Reached allowed s) :
    ∃ written, s.History written := by
  induction h with
  | empty => exact ⟨[], .empty⟩
  | change c _ hr ih =>
    obtain ⟨written, hw⟩ := ih
    exact ⟨_, hw.apply hr.sound c⟩

/-! ## The check of versions -/

theorem Sound.app_of_find? {s : Store} (hs : s.Sound) {id : ResourceId} {obj : Resource}
    (hid : id.kind = Kind.app.name) (h : s.find? id = some obj) : ∃ x, obj = .app x := by
  have hk : obj.kind = .app := Kind.name_inj.mp ((hs.kind_of_find? h).trans hid)
  cases obj with
  | app x => exact ⟨x, rfl⟩
  | packageInstall x => cases hk
  | package x => cases hk

theorem History.mem_of_find? {s : Store} {written : List App} (h : s.History written)
    {id : ResourceId} {x : App} (hf : s.find? id = some (.app x)) : x ∈ written := by
  obtain ⟨i, hmem, _⟩ := find?_mem hf
  exact h.stored _ hmem x rfl

/-- **The check of versions is exact.** An App that carries the version of what
was read may be written exactly when what was read is what is stored under its
identity; otherwise the write is a conflict. -/
theorem History.objection?_app {s : Store} {written : List App} (hs : s.Sound)
    (h : s.History written) {x : App} {read : Option App}
    (hread : ∀ a, read = some a → a ∈ written)
    (hx : x.resourceVersion = App.versionRead read)
    (hid : (Resource.app x).id.isAtomic = true) :
    s.objection? (.app x) =
      if s.find? (Resource.app x).id = read.map .app then none
      else some (.conflict (Resource.app x).id.text x.resourceVersion
        (s.currentVersion (Resource.app x).id)) := by
  have hexact : x.resourceVersion.same (s.currentVersion (Resource.app x).id) = true ↔
      s.find? (Resource.app x).id = read.map .app := by
    rw [hx]
    unfold currentVersion
    rcases hf : s.find? (Resource.app x).id with _ | obj
    · cases read with
      | none => simp [App.versionRead, Value.same]
      | some a =>
        obtain ⟨v, hv⟩ := h.version_text (hread a rfl)
        simp [App.versionRead, hv, Value.same]
    · obtain ⟨b, rfl⟩ := hs.app_of_find? rfl hf
      have hb := h.mem_of_find? hf
      obtain ⟨w, hw⟩ := h.version_text hb
      cases read with
      | none => simp [App.versionRead, versionOf, hw, Value.same]
      | some a =>
        have ha := hread a rfl
        simp only [App.versionRead, versionOf, Option.map_some, Option.getD_some, hw,
          Value.same_str, Option.some.injEq, Resource.app.injEq]
        exact ⟨fun hv => h.eq_of_version hb ha (hw.trans hv.symm), fun he => he ▸ hw⟩
  unfold objection?
  simp only [hid, Bool.not_true, Bool.false_eq_true, if_false]
  by_cases hc : s.find? (Resource.app x).id = read.map .app
  · rw [if_pos hc, if_pos (hexact.mpr hc)]
  · rw [if_neg hc, if_neg fun hv => hc (hexact.mp hv)]

end Store

end AppSynthesis
