/-
AppSynthesis.Proofs.Store.Sound — what holds of every store that can come
about.

* `Store.Change`, `Store.Reached` — the requests that change a store, and the
  stores that such requests lead to from the empty one. `Reached` is relative
  to the changes that are allowed.
* `Store.Sound` — no two identities of a store are the same, each belongs to
  the resource under it, and all of them can be looked up.
* `Store.Reached.sound` — every store that can be reached is sound.
* `Store.Sound.find?_write`, `Store.Sound.find?_write_other` — what is found
  after a resource was written: that resource under its own identity, and
  what was there before under every other. `Store.Sound.filter_write` and
  `Store.Sound.filterMap_write` say the same of all objects at once, told apart by
  identity and by kind.
* `Store.KeysDistinct` — no map has a key twice in the document of any resource.
* `Store.given` — a store that some resources were written to, one that can be reached.
* `Store.get_eq_ok`, `Store.filterMap_list` — what the other ways to ask a store
  come down to.

That identities are compared as values and not by equality costs little:
among identities that can be looked up `ResourceId.same` is transitive
(`AppSynthesis.Proofs.Value.Identity`), and nothing more is used here.
-/
import AppSynthesis.Proofs.Schema.Reflexive
import AppSynthesis.Proofs.Value.Identity
import AppSynthesis.Store.Basic

namespace AppSynthesis

@[simp] theorem Resource.id_kind (obj : Resource) : obj.id.kind = obj.kind.name := by
  cases obj <;> rfl

theorem Kind.name_inj {a b : Kind} : a.name = b.name ↔ a = b := by
  cases a <;> cases b <;> decide

namespace Store

/-! ## Placing an object -/

/-- The identities after placing an object: those from before, and its own at
the end unless one of them was the same. -/
theorem keys_place (id : ResourceId) (obj : Resource) :
    ∀ objects : List (ResourceId × Resource),
      (place id obj objects).map (·.1) =
        if objects.any (·.1.same id) then objects.map (·.1) else objects.map (·.1) ++ [id]
  | [] => by simp [place]
  | (i, o) :: rest => by
    by_cases h : i.same id = true
    · simp [place, h]
    · simp only [place, h, List.map_cons, List.any_cons, Bool.false_or]
      rw [if_neg (by simp), List.map_cons, keys_place id obj rest]
      split <;> rfl

/-- An entry after placing an object holds it, under its own identity or under
the one of the entry it replaces; or it was there before. -/
theorem mem_place {id : ResourceId} {obj : Resource} {e : ResourceId × Resource} :
    ∀ {objects : List (ResourceId × Resource)}, e ∈ place id obj objects →
      (e.2 = obj ∧ (e.1 = id ∨ (e.1.same id = true ∧ ∃ o, (e.1, o) ∈ objects))) ∨ e ∈ objects
  | [], h => by
    rw [place, List.mem_singleton] at h
    exact Or.inl (h ▸ ⟨rfl, Or.inl rfl⟩)
  | (i, o) :: rest, h => by
    rw [place] at h
    split at h
    · rename_i hi
      rcases List.mem_cons.mp h with rfl | hr
      · exact Or.inl ⟨rfl, Or.inr ⟨hi, o, List.mem_cons_self⟩⟩
      · exact Or.inr (List.mem_cons_of_mem _ hr)
    · rcases List.mem_cons.mp h with rfl | hr
      · exact Or.inr List.mem_cons_self
      · rcases mem_place hr with ⟨h2, rfl | ⟨h1, o', ho'⟩⟩ | hr
        · exact Or.inl ⟨h2, Or.inl rfl⟩
        · exact Or.inl ⟨h2, Or.inr ⟨h1, o', List.mem_cons_of_mem _ ho'⟩⟩
        · exact Or.inr (List.mem_cons_of_mem _ hr)

/-- The object that was placed is found under every identity that the stored
ones cannot tell from its own. -/
theorem find?_place {id id' : ResourceId} (obj : Resource) (hid : id.same id' = true) :
    ∀ {objects : List (ResourceId × Resource)},
      (∀ e ∈ objects, e.1.same id = e.1.same id') →
      ((place id obj objects).find? (·.1.same id')).map (·.2) = some obj
  | [], _ => by simp [place, hid]
  | (i, o) :: rest, h => by
    have hi := h (i, o) List.mem_cons_self
    have hrest := find?_place obj hid fun e he => h e (List.mem_cons_of_mem _ he)
    by_cases hs : i.same id = true
    · simp only [place, hs, if_true, List.find?_cons, ← hi, Option.map_some]
    · simp only [place, hs, Bool.false_eq_true, if_false, List.find?_cons, ← hi]
      exact hrest

/-- Under an identity that is not told apart from none of the replaced ones,
the same is found as before. -/
theorem find?_place_other {id id' : ResourceId} (obj : Resource) (hid : id.same id' = false) :
    ∀ {objects : List (ResourceId × Resource)},
      (∀ e ∈ objects, e.1.same id = true → e.1.same id' = false) →
      (place id obj objects).find? (·.1.same id') = objects.find? (·.1.same id')
  | [], _ => by simp [place, hid]
  | (i, o) :: rest, h => by
    have hrest := find?_place_other obj hid fun e he => h e (List.mem_cons_of_mem _ he)
    by_cases hs : i.same id = true
    · have hi := h (i, o) List.mem_cons_self hs
      simp [place, hs, hi]
    · rw [place, if_neg hs, List.find?_cons, List.find?_cons, hrest]

/-- What a selection takes from a store does not change when an object that
it does not take is placed over objects that it does not take. -/
theorem filterMap_place {β : Type} {id : ResourceId} {obj : Resource} (f : Resource → Option β)
    (hobj : f obj = none) :
    ∀ {objects : List (ResourceId × Resource)},
      (∀ e ∈ objects, e.1.same id = true → f e.2 = none) →
      ((place id obj objects).map (·.2)).filterMap f = (objects.map (·.2)).filterMap f
  | [], _ => by simp [place, hobj]
  | (i, o) :: rest, h => by
    have hrest := filterMap_place f hobj fun e he => h e (List.mem_cons_of_mem _ he)
    by_cases hs : i.same id = true
    · have hi := h (i, o) List.mem_cons_self hs
      simp [place, hs, hi, hobj]
    · rw [place, if_neg hs, List.map_cons, List.map_cons, List.filterMap_cons,
        List.filterMap_cons, hrest]

/-- Entries under other identities stay as they are and where they are. -/
theorem filter_place {id : ResourceId} {obj : Resource} {p : ResourceId → Bool}
    (hid : p id = false) :
    ∀ {objects : List (ResourceId × Resource)},
      (∀ e ∈ objects, e.1.same id = true → p e.1 = false) →
      (place id obj objects).filter (fun e => p e.1) = objects.filter fun e => p e.1
  | [], _ => by simp [place, hid]
  | (i, o) :: rest, h => by
    have hrest := @filter_place id obj p hid rest fun e he => h e (List.mem_cons_of_mem _ he)
    by_cases hs : i.same id = true
    · have hi := h (i, o) List.mem_cons_self hs
      simp [place, hs, hi]
    · rw [place, if_neg hs, List.filter_cons, List.filter_cons, hrest]

/-- To leave out entries that an object is not placed over is the same before and after. -/
theorem place_filter {id : ResourceId} {obj : Resource} {p : ResourceId × Resource → Bool}
    (hobj : ∀ i, p (i, obj) = true) :
    ∀ {objects : List (ResourceId × Resource)},
      (∀ e ∈ objects, e.1.same id = true → p e = true) →
      place id obj (objects.filter p) = (place id obj objects).filter p
  | [], _ => by simp [place, hobj]
  | (i, o) :: rest, h => by
    have hrest := @place_filter id obj p hobj rest fun e he => h e (List.mem_cons_of_mem _ he)
    by_cases hs : i.same id = true
    · have hi := h (i, o) List.mem_cons_self hs
      simp [place, hs, hi, hobj]
    · by_cases hp : p (i, o) = true
      · simp [place, hs, hp, hrest]
      · simp [place, hs, hp, hrest]

/-! ## Adding a resource -/

@[simp] theorem stamped_id (s : Store) (obj : Resource) : (s.stamped obj).id = obj.id := by
  cases obj <;> rfl

@[simp] theorem stamped_kind (s : Store) (obj : Resource) : (s.stamped obj).kind = obj.kind := by
  cases obj <;> rfl

theorem isAtomic_of_objection? {s : Store} {obj : Resource} (h : s.objection? obj = none) :
    obj.id.isAtomic = true := by
  unfold objection? at h
  split at h
  · cases h
  · rename_i ha
    simpa using ha

/-- Without refusals an addition fails over an objection, finds the resource
there already, or writes it. -/
theorem add_cases {s : Store} (hs : s.refusals = 0) (obj : Resource) :
    (∃ e, s.objection? obj = some e ∧ s.add obj = (.error e, s)) ∨
    (s.objection? obj = none ∧ s.holds obj = true ∧ s.add obj = (.ok .unchanged, s)) ∨
    (s.objection? obj = none ∧ s.holds obj = false ∧
      s.add obj = (.ok (.stored (s.stamped obj)), s.write obj)) := by
  rcases ho : s.objection? obj with _ | e
  · by_cases hh : s.holds obj = true
    · refine Or.inr (Or.inl ⟨rfl, hh, ?_⟩)
      unfold add
      rw [hs, ho]
      cases obj <;> simp [hh]
    · refine Or.inr (Or.inr ⟨rfl, by simpa using hh, ?_⟩)
      unfold add
      rw [hs, ho]
      cases obj <;> simp [hh]
  · refine Or.inl ⟨e, rfl, ?_⟩
    unfold add
    rw [hs, ho]
    cases obj <;> rfl

/-- The answer to an addition that is refused; all that can change is how many are refused. -/
theorem add_of_error {s t : Store} {obj : Resource} {e : Error} (h : s.add obj = (.error e, t)) :
    t.objects = s.objects ∧ t.revision = s.revision ∧ t.registrations = s.registrations := by
  unfold add at h
  split at h
  · cases h
    exact ⟨rfl, rfl, rfl⟩
  · split at h
    · cases h
      exact ⟨rfl, rfl, rfl⟩
    · split at h <;> cases h

theorem add_of_unchanged {s t : Store} {obj : Resource} (h : s.add obj = (.ok .unchanged, t)) :
    t = s := by
  unfold add at h
  split at h
  · cases h
  · split at h
    · cases h
    · split at h <;> cases h
      rfl

theorem add_of_stored {s t : Store} {obj written : Resource}
    (h : s.add obj = (.ok (.stored written), t)) : written = s.stamped obj ∧ t = s.write obj := by
  unfold add at h
  split at h
  · cases h
  · split at h
    · cases h
    · split at h <;> cases h
      exact ⟨rfl, rfl⟩

/-- What becomes of the store by an addition. -/
theorem add_store {s : Store} (hs : s.refusals = 0) (obj : Resource) :
    (s.add obj).2 = s ∨ (obj.id.isAtomic = true ∧ (s.add obj).2 = s.write obj) := by
  rcases add_cases hs obj with ⟨e, _, he⟩ | ⟨_, _, hu⟩ | ⟨ho, _, hw⟩
  · exact Or.inl (by rw [he])
  · exact Or.inl (by rw [hu])
  · exact Or.inr ⟨isAtomic_of_objection? ho, by rw [hw]⟩

/-! ## Changes -/

/-- A request that may change a store. -/
inductive Change where
  | add (obj : Resource)
  | delete (id : ResourceId)
  | register (event : StoreEvent) (listener : ListenerId)
  | unregister (event : StoreEvent) (listener : ListenerId)

/-- The store after a request; one that fails leaves it as it is. -/
def Change.apply : Change → Store → Store
  | .add obj, s => (s.add obj).2
  | .delete id, s =>
    match s.delete id with
    | .ok (_, t) => t
    | .error _ => s
  | .register event listener, s => s.register event listener
  | .unregister event listener, s => s.unregister event listener

/-- The stores that allowed changes lead to, from the empty store on. -/
inductive Reached (allowed : Change → Prop) : Store → Prop
  | empty : Reached allowed {}
  | change {s : Store} (c : Change) : allowed c → Reached allowed s → Reached allowed (c.apply s)

/-- Every change is allowed. -/
def Change.any (_ : Change) : Prop := True

/-- The store that comes of adding resources in turn. -/
def given (resources : List Resource) : Store :=
  resources.foldl (fun s obj => (Change.add obj).apply s) {}

/-- It can be reached when all the additions are allowed. -/
theorem given_reached_of {allowed : Change → Prop} {resources : List Resource}
    (h : ∀ obj ∈ resources, allowed (.add obj)) : (given resources).Reached allowed := by
  have hall : ∀ {s : Store}, s.Reached allowed →
      (resources.foldl (fun s obj => (Change.add obj).apply s) s).Reached allowed := by
    induction resources with
    | nil => exact fun hs => hs
    | cons obj rest ih =>
      obtain ⟨hobj, hrest⟩ := List.forall_mem_cons.mp h
      exact fun hs => ih hrest (.change _ hobj hs)
  exact hall .empty

theorem given_reached (resources : List Resource) : (given resources).Reached Change.any :=
  given_reached_of fun _ _ => trivial

/-- A deletion takes away one entry or none. -/
theorem delete_cases (s : Store) (id : ResourceId) :
    (Change.delete id).apply s = s ∨
      (Change.delete id).apply s =
        { s with objects := s.objects.eraseP fun e => e.1.same id } := by
  simp only [Change.apply, delete]
  by_cases hid : id.isAtomic = true
  · rcases hf : s.find? id with _ | obj
    · exact Or.inl (by simp [hid])
    · exact Or.inr (by simp [hid])
  · exact Or.inl (by simp [hid])

/-! ## Soundness -/

/-- What holds of every store that can be reached. -/
structure Sound (s : Store) : Prop where
  /-- No write is refused without a reason. -/
  refusals : s.refusals = 0
  /-- All identities can be looked up. -/
  atomic : ∀ e ∈ s.objects, e.1.isAtomic = true ∧ e.2.id.isAtomic = true
  /-- Each resource is stored under its own identity. -/
  keyed : ∀ e ∈ s.objects, e.1.same e.2.id = true
  /-- No two identities are the same. -/
  distinct : (s.objects.map (·.1)).Pairwise fun a b => a.same b = false

theorem Sound.empty : Sound {} := ⟨rfl, by simp, by simp, by simp⟩

/-- Fewer objects make no store unsound. -/
theorem Sound.of_sublist {s t : Store} (hs : s.Sound) (hr : t.refusals = 0)
    (h : t.objects.Sublist s.objects) : t.Sound where
  refusals := hr
  atomic := fun e he => hs.atomic e (h.subset he)
  keyed := fun e he => hs.keyed e (h.subset he)
  distinct := hs.distinct.sublist (h.map _)

theorem Sound.write {s : Store} (hs : s.Sound) {obj : Resource}
    (hobj : obj.id.isAtomic = true) : (s.write obj).Sound where
  refusals := hs.refusals
  atomic := by
    intro e he
    rcases mem_place he with ⟨h2, h1⟩ | he
    · rw [h2, stamped_id]
      rcases h1 with h1 | ⟨_, o, ho⟩
      · exact ⟨h1 ▸ hobj, hobj⟩
      · exact ⟨(hs.atomic _ ho).1, hobj⟩
    · exact hs.atomic e he
  keyed := by
    intro e he
    rcases mem_place he with ⟨h2, h1⟩ | he
    · rw [h2, stamped_id]
      rcases h1 with h1 | ⟨hsame, _⟩
      · rw [h1]
        exact ResourceId.same_self hobj
      · exact hsame
    · exact hs.keyed e he
  distinct := by
    show ((place obj.id (s.stamped obj) s.objects).map (·.1)).Pairwise _
    rw [keys_place]
    split
    · exact hs.distinct
    · rename_i h
      simp only [List.any_eq_true, not_exists, not_and, Bool.not_eq_true] at h
      rw [List.pairwise_append]
      refine ⟨hs.distinct, List.pairwise_singleton _ _, ?_⟩
      intro a ha b hb
      obtain ⟨e, he, rfl⟩ := List.mem_map.mp ha
      rw [List.mem_singleton] at hb
      exact hb ▸ h e he

/-- Every change keeps a store sound. -/
theorem Sound.apply {s : Store} (hs : s.Sound) : ∀ c : Change, (c.apply s).Sound
  | .add obj => by
    show (s.add obj).2.Sound
    rcases add_store hs.refusals obj with h | ⟨hobj, h⟩
    · rw [h]; exact hs
    · rw [h]; exact hs.write hobj
  | .delete id => by
    rcases delete_cases s id with h | h
    · rw [h]; exact hs
    · rw [h]
      exact hs.of_sublist hs.refusals List.eraseP_sublist
  | .register _ _ => hs.of_sublist hs.refusals (List.Sublist.refl _)
  | .unregister _ _ => hs.of_sublist hs.refusals (List.Sublist.refl _)

/-- **Every store that can be reached is sound.** -/
theorem Reached.sound {allowed : Change → Prop} {s : Store} (h : Reached allowed s) :
    s.Sound := by
  induction h with
  | empty => exact .empty
  | change c _ _ ih => exact ih.apply c

/-- No map has a key twice in the document of any resource. -/
def KeysDistinct (s : Store) : Prop := ∀ e ∈ s.objects, e.2.document.keysDistinct = true

/-! ## Looking up -/

theorem find?_mem {s : Store} {id : ResourceId} {obj : Resource} (h : s.find? id = some obj) :
    ∃ i, (i, obj) ∈ s.objects ∧ i.same id = true := by
  obtain ⟨e, he, rfl⟩ := Option.map_eq_some_iff.mp h
  have hsame := List.find?_some he
  exact ⟨e.1, List.mem_of_find?_eq_some he, hsame⟩

/-- What is stored is found under every identity that is the same as its own. -/
theorem Sound.find?_of_mem {s : Store} (hs : s.Sound) {i id : ResourceId} {obj : Resource}
    (hmem : (i, obj) ∈ s.objects) (hid : id.isAtomic = true) (h : i.same id = true) :
    s.find? id = some obj := by
  obtain ⟨l, r, hlr⟩ := List.append_of_mem hmem
  have hl : ∀ e ∈ l, e.1.same id = false := by
    intro e he
    have hd := hs.distinct
    rw [hlr, List.map_append, List.pairwise_append] at hd
    have hei : e.1.same i = false :=
      hd.2.2 e.1 (List.mem_map_of_mem he) i (List.mem_map_of_mem List.mem_cons_self)
    have hae := (hs.atomic e (hlr ▸ List.mem_append_left _ he)).1
    rw [← ResourceId.same_congr hae (hs.atomic _ hmem).1 hid h]
    exact hei
  unfold find?
  rw [hlr, List.find?_append, List.find?_eq_none.mpr fun e he => by simp [hl e he],
    Option.none_or, List.find?_cons, h]
  rfl

/-- What is found has the kind that was asked for. -/
theorem Sound.kind_of_find? {s : Store} (hs : s.Sound) {id : ResourceId} {obj : Resource}
    (h : s.find? id = some obj) : obj.kind.name = id.kind := by
  obtain ⟨i, hmem, hi⟩ := find?_mem h
  have hik : i.kind = obj.id.kind := (ResourceId.same_iff.mp (hs.keyed _ hmem)).1
  rw [← Resource.id_kind, ← hik]
  exact (ResourceId.same_iff.mp hi).1

/-- What is found has the identity that was asked for, or one that is the same. -/
theorem Sound.same_of_find? {s : Store} (hs : s.Sound) {id : ResourceId} {obj : Resource}
    (hid : id.isAtomic = true) (h : s.find? id = some obj) :
    obj.id.isAtomic = true ∧ obj.id.same id = true := by
  obtain ⟨i, hmem, hi⟩ := find?_mem h
  obtain ⟨hia, hoa⟩ := hs.atomic _ hmem
  exact ⟨hoa, ResourceId.same_trans hoa hia hid
    (ResourceId.same_symm hia hoa (hs.keyed _ hmem)) hi⟩

/-- Under two identities that are the same, the same is found. -/
theorem Sound.find?_congr {s : Store} (hs : s.Sound) {a b : ResourceId}
    (ha : a.isAtomic = true) (hb : b.isAtomic = true) (h : a.same b = true) :
    s.find? a = s.find? b := by
  have hcongr : ∀ e ∈ s.objects, e.1.same a = e.1.same b :=
    fun e he => ResourceId.same_congr (hs.atomic e he).1 ha hb h
  unfold find?
  rw [← List.head?_filter, ← List.head?_filter, List.filter_congr hcongr]

/-- A resource that was written is found. -/
theorem Sound.find?_write {s : Store} (hs : s.Sound) {obj : Resource} {id : ResourceId}
    (hobj : obj.id.isAtomic = true) (hid : id.isAtomic = true) (h : obj.id.same id = true) :
    (s.write obj).find? id = some (s.stamped obj) :=
  find?_place (s.stamped obj) h fun e he => ResourceId.same_congr (hs.atomic e he).1 hobj hid h

/-- Everything else is found as before. -/
theorem Sound.find?_write_other {s : Store} (hs : s.Sound) {obj : Resource} {id : ResourceId}
    (hobj : obj.id.isAtomic = true) (hid : id.isAtomic = true) (h : obj.id.same id = false) :
    (s.write obj).find? id = s.find? id := by
  show ((place obj.id (s.stamped obj) s.objects).find? _).map _ = (s.objects.find? _).map _
  rw [find?_place_other (s.stamped obj) h]
  intro e he hsame
  have hae := (hs.atomic e he).1
  rw [Bool.eq_false_iff]
  intro hei
  have : obj.id.same id = true :=
    ResourceId.same_trans hobj hae hid (ResourceId.same_symm hae hobj hsame) hei
  rw [h] at this
  cases this

/-- Everything else is kept as it is. -/
theorem Sound.filter_write {s : Store} (hs : s.Sound) {obj : Resource} {id : ResourceId}
    (hobj : obj.id.isAtomic = true) (hid : id.isAtomic = true) (h : obj.id.same id = true) :
    (s.write obj).objects.filter (fun e => !e.1.same id) =
      s.objects.filter fun e => !e.1.same id := by
  refine filter_place (p := fun i => !i.same id) (by simp [h]) fun e he hsame => ?_
  have := ResourceId.same_trans (hs.atomic e he).1 hobj hid hsame h
  simp [this]

/-- What is selected from other kinds is not changed by a write. -/
theorem Sound.filterMap_write {s : Store} (hs : s.Sound) (obj : Resource) {β : Type}
    {f : Resource → Option β} (hf : ∀ o : Resource, o.kind = obj.kind → f o = none) :
    ((s.write obj).objects.map (·.2)).filterMap f = (s.objects.map (·.2)).filterMap f := by
  refine filterMap_place f (hf _ (s.stamped_kind obj)) fun e he hsame => hf _ ?_
  rw [← Kind.name_inj, ← Resource.id_kind, ← Resource.id_kind,
    ← (ResourceId.same_iff.mp (hs.keyed e he)).1, (ResourceId.same_iff.mp hsame).1]

theorem Sound.installs_write {s : Store} (hs : s.Sound) {obj : Resource}
    (h : obj.kind ≠ .packageInstall) : (s.write obj).installs = s.installs := by
  refine hs.filterMap_write obj fun o ho => ?_
  cases o with
  | app x => rfl
  | packageInstall x => exact absurd ho.symm h
  | package x => rfl

theorem Sound.packages_write {s : Store} (hs : s.Sound) {obj : Resource}
    (h : obj.kind ≠ .package) : (s.write obj).packages = s.packages := by
  refine hs.filterMap_write obj fun o ho => ?_
  cases o with
  | app x => rfl
  | packageInstall x => rfl
  | package x => exact absurd ho.symm h

/-! ## Reading -/

theorem get_eq_ok {s : Store} {id : ResourceId} {type : RecordType}
    {answer : Option Resource} (h : s.get id type = .ok answer) :
    id.isAtomic = true ∧ s.find? id = answer ∧
      ∀ obj, answer = some obj → type = .bare ∨ type = .ofKind obj.kind := by
  unfold get at h
  split at h
  · cases h
  · rename_i hid
    have hid : id.isAtomic = true := by simpa using hid
    split at h
    · rename_i hf
      cases h
      exact ⟨hid, hf, by simp⟩
    · rename_i obj hf
      split at h
      · rename_i ht
        cases h
        exact ⟨hid, hf, fun obj' ho => Option.some.inj ho ▸ ht⟩
      · cases h

/-- Whoever asks for an App is given one or none. -/
theorem app_of_get {s : Store} {id : ResourceId} {obj : Resource}
    (h : s.get id .app = .ok (some obj)) : ∃ a, obj = .app a := by
  obtain ⟨_, _, ht⟩ := get_eq_ok h
  rcases ht obj rfl with ht | ht
  · cases ht
  · cases obj with
    | app a => exact ⟨a, rfl⟩
    | packageInstall x => cases ht
    | package x => cases ht

/-- What is selected from one kind is selected from the resources of that kind. -/
theorem filterMap_list {β : Type} (s : Store) {kind : Kind} {f : Resource → Option β}
    (hf : ∀ obj : Resource, obj.kind ≠ kind → f obj = none) :
    (s.list (some kind.name)).filterMap f = (s.objects.map (·.2)).filterMap f := by
  have hall : (fun obj : Resource => if obj.kind.name == kind.name then f obj else none) = f := by
    funext obj
    by_cases h : obj.kind = kind
    · rw [if_pos (by simp [h])]
    · rw [hf obj h, ite_self]
  unfold list
  dsimp only
  rw [List.filterMap_filter, hall]

theorem filterMap_list_package (s : Store) :
    (s.list (some Kind.package.name)).filterMap Resource.package? = s.packages := by
  refine s.filterMap_list fun obj h => ?_
  cases obj with
  | app x => rfl
  | packageInstall x => rfl
  | package x => exact absurd rfl h

theorem filterMap_list_install (s : Store) :
    (s.list (some Kind.packageInstall.name)).filterMap Resource.packageInstall? = s.installs := by
  refine s.filterMap_list fun obj h => ?_
  cases obj with
  | app x => rfl
  | packageInstall x => exact absurd rfl h
  | package x => rfl

end Store

end AppSynthesis
