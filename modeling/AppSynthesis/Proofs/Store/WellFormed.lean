/-
AppSynthesis.Proofs.Store.WellFormed — stores of resources as a cluster would
have them.

* `Resource.WellFormed` — name and namespace are text, and annotations are absent
  or a map with text keys.
* `Store.WellFormed` — a sound store with a history, of well-formed resources,
  each under its own identity.
* `Store.WellFormed.of_reached` — a store that can be reached is well-formed when
  its resources are.
* `Store.WellFormed.find?_iff` — so to look up an identity is to look for the
  entry with that identity.

Identities of text are the same exactly when they are equal
(`ResourceId.same_of_isText`). All that `ResourceId.same` adds for other values
drops out here.
-/
import AppSynthesis.Proofs.Store.History

namespace AppSynthesis

/-! ## Resources -/

/-- Whether annotations are absent or a map with text keys. -/
def Value.isTextMap : Value → Bool
  | .null => true
  | .map _ entries => entries.all fun e => e.1.isText
  | _ => false

/-- The annotations of a resource, null for a package. -/
def Resource.annotations : Resource → Value
  | .app x => x.annotations
  | .packageInstall x => x.annotations
  | .package _ => .null

structure Resource.WellFormed (obj : Resource) : Prop where
  ns : obj.id.ns.isText = true
  name : obj.id.name.isText = true
  annotations : obj.annotations.isTextMap = true

/-- Whether namespace and name are text. -/
def ResourceId.isText (id : ResourceId) : Bool := id.ns.isText && id.name.isText

theorem Resource.WellFormed.isText {obj : Resource} (h : obj.WellFormed) :
    obj.id.isText = true := by
  simp [ResourceId.isText, h.ns, h.name]

theorem Value.isAtomic_of_isText {v : Value} (h : v.isText = true) : v.isAtomic = true := by
  cases v <;> first | rfl | cases h

theorem ResourceId.isAtomic_of_isText {id : ResourceId} (h : id.isText = true) :
    id.isAtomic = true := by
  simp only [isText, Bool.and_eq_true] at h
  exact isAtomic_iff.mpr ⟨Value.isAtomic_of_isText h.1, Value.isAtomic_of_isText h.2⟩

/-- Identities of text are the same exactly when they are equal. -/
theorem ResourceId.same_of_isText {a b : ResourceId} (h : a.isText = true) :
    a.same b = true ↔ a = b := by
  simp only [isText, Bool.and_eq_true] at h
  rw [same_iff, Value.agrees_of_isText h.1, Value.agrees_of_isText h.2]
  cases a
  cases b
  simp

/-- What is the same as an identity of text is that identity. -/
theorem ResourceId.same_isText {a b : ResourceId} (h : b.isText = true) :
    a.same b = true ↔ a = b := by
  simp only [isText, Bool.and_eq_true] at h
  obtain ⟨kind, ns, name⟩ := b
  obtain ⟨n, rfl⟩ := Value.exists_str h.1
  obtain ⟨m, rfl⟩ := Value.exists_str h.2
  rw [same_iff, Value.agrees_str, Value.agrees_str]
  cases a
  simp

namespace Store

/-! ## Stores -/

structure WellFormed (s : Store) : Prop where
  sound : s.Sound
  history : ∃ written, s.History written
  objects : ∀ e ∈ s.objects, e.1 = e.2.id ∧ e.2.WellFormed

/-- A store that can be reached is well-formed when its resources are. -/
theorem WellFormed.of_reached {allowed : Change → Prop} {s : Store} (h : Reached allowed s)
    (hobjects : ∀ e ∈ s.objects, e.2.WellFormed) : s.WellFormed where
  sound := h.sound
  history := h.history
  objects := by
    intro e he
    exact ⟨(ResourceId.same_isText (hobjects e he).isText).mp (h.sound.keyed e he), hobjects e he⟩

/-- Fewer objects make a well-formed store, whatever listeners it has. -/
theorem WellFormed.of_sublist {s t : Store} (hs : s.WellFormed)
    (hrevision : t.revision = s.revision) (hrefusals : t.refusals = 0)
    (h : t.objects.Sublist s.objects) : t.WellFormed := by
  obtain ⟨written, hw⟩ := hs.history
  exact ⟨hs.sound.of_sublist hrefusals h, ⟨written, hw.of_subset hrevision h.subset⟩,
    fun e he => hs.objects e (h.subset he)⟩

/-- An entry whose identity is the same as that of a resource has that identity. -/
theorem WellFormed.key_eq {s : Store} (hs : s.WellFormed) {e : ResourceId × Resource}
    (he : e ∈ s.objects) {id : ResourceId} (h : e.1.same id = true) : e.1 = id := by
  obtain ⟨hkey, hformed⟩ := hs.objects e he
  have htext : e.1.isText = true := hkey ▸ hformed.isText
  exact (ResourceId.same_of_isText htext).mp h

theorem WellFormed.write {s : Store} (hs : s.WellFormed) {obj : Resource} (hobj : obj.WellFormed) :
    (s.write obj).WellFormed where
  sound := hs.sound.write (ResourceId.isAtomic_of_isText hobj.isText)
  history := by
    obtain ⟨written, hw⟩ := hs.history
    exact ⟨_, hw.write obj⟩
  objects := by
    intro e he
    rcases mem_place he with ⟨h2, h1⟩ | he
    · have hkey : e.1 = obj.id := by
        rcases h1 with h1 | ⟨hsame, o, ho⟩
        · exact h1
        · exact hs.key_eq ho hsame
      have hann : (s.stamped obj).annotations = obj.annotations := by cases obj <;> rfl
      rw [h2, hkey, stamped_id]
      exact ⟨rfl, by rw [stamped_id]; exact hobj.ns, by rw [stamped_id]; exact hobj.name,
        by rw [hann]; exact hobj.annotations⟩
    · exact hs.objects e he

/-! ## Looking up -/

namespace WellFormed

variable {s : Store}

/-- To look up an identity is to look for the entry with it. -/
theorem find?_iff (hs : s.WellFormed) {id : ResourceId} {obj : Resource} (hid : id.isText = true) :
    s.find? id = some obj ↔ (id, obj) ∈ s.objects := by
  constructor
  · intro h
    obtain ⟨i, hmem, hsame⟩ := find?_mem h
    exact hs.key_eq hmem hsame ▸ hmem
  · intro h
    exact hs.sound.find?_of_mem h (ResourceId.isAtomic_of_isText hid)
      ((ResourceId.same_of_isText hid).mpr rfl)

/-- The resource that is found has the identity that was asked for. -/
theorem of_find? (hs : s.WellFormed) {id : ResourceId} {obj : Resource} (hid : id.isText = true)
    (h : s.find? id = some obj) : obj.id = id ∧ obj.WellFormed := by
  obtain ⟨hkey, hformed⟩ := hs.objects _ ((hs.find?_iff hid).mp h)
  exact ⟨hkey.symm, hformed⟩

/-- The resources of a store are found under their identities. -/
theorem find?_of_mem (hs : s.WellFormed) {obj : Resource} (h : obj ∈ s.objects.map (·.2)) :
    obj.WellFormed ∧ s.find? obj.id = some obj := by
  obtain ⟨e, he, rfl⟩ := List.mem_map.mp h
  obtain ⟨hkey, hformed⟩ := hs.objects e he
  exact ⟨hformed, (hs.find?_iff hformed.isText).mpr (hkey ▸ he)⟩

/-- What is written is found under its own identity, and the rest as before. -/
theorem find?_write (hs : s.WellFormed) {obj : Resource} (hobj : obj.WellFormed) {id : ResourceId}
    (hid : id.isText = true) :
    (s.write obj).find? id = if obj.id = id then some (s.stamped obj) else s.find? id := by
  have hatomic := ResourceId.isAtomic_of_isText hobj.isText
  split
  · rename_i heq
    exact hs.sound.find?_write hatomic (ResourceId.isAtomic_of_isText hid)
      ((ResourceId.same_of_isText hobj.isText).mpr heq)
  · rename_i hne
    refine hs.sound.find?_write_other hatomic (ResourceId.isAtomic_of_isText hid) ?_
    rw [Bool.eq_false_iff]
    exact fun h => hne ((ResourceId.same_of_isText hobj.isText).mp h)

end WellFormed

end Store

end AppSynthesis
