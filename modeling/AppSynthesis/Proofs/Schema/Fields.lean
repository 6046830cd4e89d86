/-
AppSynthesis.Proofs.Schema.Fields — properties of records, field by field.

* `exists_mem_of_mapM`, `mapM_map_eq_some`, `mapM_eq_ok` — lists that are read item by item.
* `Codec.Property` — a property of the elements of any type, as a codec takes them.
* `Fields.All`, `Fields.Each` — that a property holds of all codecs of a row of fields, and
  of all elements in a row.
* `Fields.good_of_each`, `Fields.each_good` — a row is written with a property exactly when all
  its elements are.
* `Fields.Regular` — no two fields share a key, and what stands for an absent field is told
  from what is written; `RecordType.regular`, all records have such fields.
* `Fields.each_of_decode` — what is read from a map has a property field by field, and so
  `Fields.each_given`, it was given.
* `Schema.decode_eq_ok` — a record is read from a map that has no keys but its own.
* `Codec.Closed` — a property of codecs that collections and records take from the codecs
  they are made of; `RecordType.closed`, all records have such a property.
* `Codec.Inherited` — a property that collections and records take from their parts and
  that text and flags have anyway.

All record types are gone through here once for each of the two: in `RecordType.regular` and
in `RecordType.closed`. What is said of records elsewhere is a property of codecs that is
closed, or a property of elements that is inherited.
-/
import AppSynthesis.Manifest.Record
import AppSynthesis.Proofs.Value.Entries

namespace AppSynthesis

/-! ## Results -/

theorem toOption_eq_some {ε α : Type} {m : Except ε α} {x : α} :
    m.toOption = some x ↔ m = .ok x := by
  cases m <;> simp [Except.toOption]

theorem exists_ok_of_isSome {ε α : Type} {m : Except ε α} (h : m.toOption.isSome = true) :
    ∃ x, m = .ok x :=
  (Option.isSome_iff_exists.mp h).imp fun _ => toOption_eq_some.mp

theorem bind_eq_ok {ε α β : Type} {m : Except ε β} {f : β → Except ε α} {x : α} :
    m >>= f = .ok x ↔ ∃ y, m = .ok y ∧ f y = .ok x := by
  cases m <;> simp [bind, Except.bind]

theorem bind_eq_error {ε α β : Type} {m : Except ε β} {f : β → Except ε α} {e : ε} :
    m >>= f = .error e ↔ m = .error e ∨ ∃ y, m = .ok y ∧ f y = .error e := by
  cases m <;> simp [bind, Except.bind]

theorem map_eq_ok {ε α β : Type} {m : Except ε β} {f : β → α} {x : α} :
    f <$> m = .ok x ↔ ∃ y, m = .ok y ∧ f y = x := by
  cases m <;> simp [Functor.map, Except.map]

theorem map_eq_error {ε α β : Type} {m : Except ε β} {f : β → α} {e : ε} :
    f <$> m = .error e ↔ m = .error e := by
  cases m <;> simp [Functor.map, Except.map]

/-- Each member of a list of results is the result of an item. -/
theorem exists_mem_of_mapM {α β : Type} {f : β → Option α} : ∀ {items : List β} {xs : List α},
    items.mapM f = some xs → ∀ x ∈ xs, ∃ v ∈ items, f v = some x
  | [], xs, h, x, hx => by
    obtain rfl : [] = xs := Option.some.inj h
    exact absurd hx List.not_mem_nil
  | v :: rest, xs, h, x, hx => by
    rw [List.mapM_cons] at h
    obtain ⟨y, hy, h⟩ := Option.bind_eq_some_iff.mp h
    obtain ⟨ys, hys, h⟩ := Option.bind_eq_some_iff.mp h
    obtain rfl : y :: ys = xs := Option.some.inj h
    rcases List.mem_cons.mp hx with rfl | hx
    · exact ⟨v, List.mem_cons_self, hy⟩
    · exact (exists_mem_of_mapM hys x hx).imp fun _ => And.imp_left (List.mem_cons_of_mem _)

theorem length_of_mapM {α β : Type} {f : β → Option α} : ∀ {items : List β} {xs : List α},
    items.mapM f = some xs → xs.length = items.length
  | [], xs, h => by
    obtain rfl : [] = xs := Option.some.inj h
    rfl
  | v :: rest, xs, h => by
    rw [List.mapM_cons] at h
    obtain ⟨y, _, h⟩ := Option.bind_eq_some_iff.mp h
    obtain ⟨ys, hys, h⟩ := Option.bind_eq_some_iff.mp h
    obtain rfl : y :: ys = xs := Option.some.inj h
    simp [length_of_mapM hys]

/-- The results stand in the order of the items. -/
theorem getElem?_of_mapM {α β : Type} {f : β → Option α} : ∀ {items : List β} {xs : List α},
    items.mapM f = some xs → ∀ {i : Nat} {v : β}, items[i]? = some v →
      ∃ x, xs[i]? = some x ∧ f v = some x
  | v :: rest, xs, h, i, w, hw => by
    rw [List.mapM_cons] at h
    obtain ⟨y, hy, h⟩ := Option.bind_eq_some_iff.mp h
    obtain ⟨ys, hys, h⟩ := Option.bind_eq_some_iff.mp h
    obtain rfl : y :: ys = xs := Option.some.inj h
    cases i with
    | zero => exact ⟨y, rfl, Option.some.inj hw ▸ hy⟩
    | succ i => exact getElem?_of_mapM hys hw

/-- Results that come back one by one are those that come back together. -/
theorem mapM_map_eq_some {α β : Type} {f : β → Option α} {g : α → β} {xs : List α} :
    (xs.map g).mapM f = some xs ↔ ∀ x ∈ xs, f (g x) = some x := by
  induction xs with
  | nil => simp
  | cons x rest ih =>
    rw [List.map_cons, List.mapM_cons, List.forall_mem_cons, ← ih]
    rcases f (g x) with _ | y
    · simp
    · rcases (rest.map g).mapM f with _ | ys <;> simp

/-- It makes no difference whether what went wrong with an item is known. -/
theorem mapM_eq_ok {ε α β : Type} {f : β → Except ε α} : ∀ {items : List β} {xs : List α},
    items.mapM f = .ok xs ↔ items.mapM (fun v => (f v).toOption) = some xs
  | [], xs => by simp [pure, Except.pure]
  | v :: rest, xs => by
    have ih : ∀ ys, rest.mapM f = .ok ys ↔ rest.mapM (fun v => (f v).toOption) = some ys :=
      fun _ => mapM_eq_ok
    simp [List.mapM_cons, bind_eq_ok, ih, toOption_eq_some, Option.bind_eq_some_iff, pure,
      Except.pure]

/-- It is the first item that goes wrong whose error comes back. -/
theorem mapM_eq_error {ε α β : Type} {f : β → Except ε α} {items : List β} {e : ε} :
    items.mapM f = .error e ↔ ∃ front v back, items = front ++ v :: back ∧
      (∀ u ∈ front, ∃ x, f u = .ok x) ∧ f v = .error e := by
  constructor
  · induction items with
    | nil => exact fun h => nomatch h
    | cons u rest ih =>
      intro h
      rw [List.mapM_cons] at h
      rcases bind_eq_error.mp h with hu | ⟨x, hx, h⟩
      · exact ⟨[], u, rest, rfl, nofun, hu⟩
      · rcases bind_eq_error.mp h with hrest | ⟨_, _, h⟩
        · obtain ⟨front, v, back, rfl, hfront, hv⟩ := ih hrest
          exact ⟨u :: front, v, back, rfl, List.forall_mem_cons.mpr ⟨⟨x, hx⟩, hfront⟩, hv⟩
        · cases h
  · rintro ⟨front, v, back, rfl, hfront, hv⟩
    induction front with
    | nil => exact List.mapM_cons.trans (bind_eq_error.mpr (.inl hv))
    | cons u rest ih =>
      obtain ⟨⟨x, hx⟩, hrest⟩ := List.forall_mem_cons.mp hfront
      exact List.mapM_cons.trans
        (bind_eq_error.mpr (.inr ⟨x, hx, bind_eq_error.mpr (.inl (ih hrest))⟩))

/-! ## Rows of fields -/

/-- A property of the elements of any type, as a codec takes them. -/
abbrev Codec.Property := (α : Type) → Codec α → α → Prop

namespace Fields

/-- All codecs of a row have a property. -/
def All (C : (α : Type) → Codec α → Prop) {α : Type} : Fields α → Prop
  | .done => True
  | .required _ _ codec rest => C _ codec ∧ rest.All C
  | .defaulted _ _ codec _ rest => C _ codec ∧ rest.All C
  | .optional _ _ codec rest => C _ codec ∧ rest.All C
  | .loose _ _ codec rest => C _ codec ∧ rest.All C

/-- All elements in a row have a property. A field that is absent has no element, and a
null that stands for an absent field is none. -/
def Each (P : Codec.Property) {α : Type} : Fields α → α → Prop
  | .done, _ => True
  | .required _ _ codec rest, (x, xs) => P _ codec x ∧ rest.Each P xs
  | .defaulted _ _ codec _ rest, (x, xs) => P _ codec x ∧ rest.Each P xs
  | .optional _ _ codec rest, (x, xs) => (∀ y ∈ x, P _ codec y) ∧ rest.Each P xs
  | .loose _ _ codec rest, (x, xs) => (x ≠ .null → P _ codec x) ∧ rest.Each P xs

/-- What stands for absent fields has a property. -/
def Defaults (P : Codec.Property) {α : Type} : Fields α → Prop
  | .done => True
  | .required _ _ _ rest => rest.Defaults P
  | .defaulted _ _ codec value rest => P _ codec value ∧ rest.Defaults P
  | .optional _ _ _ rest => rest.Defaults P
  | .loose _ _ _ rest => rest.Defaults P

/-- What holds of every codec holds of all codecs of a row. -/
theorem All.of_forall {C : (α : Type) → Codec α → Prop} (h : ∀ α codec, C α codec) {α : Type} :
    ∀ {fields : Fields α}, fields.All C
  | .done => trivial
  | .required _ _ _ _ => ⟨h _ _, of_forall h⟩
  | .defaulted _ _ _ _ _ => ⟨h _ _, of_forall h⟩
  | .optional _ _ _ _ => ⟨h _ _, of_forall h⟩
  | .loose _ _ _ _ => ⟨h _ _, of_forall h⟩

/-- Elements of one property have another, when all codecs of the row see to it. -/
theorem Each.mono {P Q : Codec.Property} {α : Type} : ∀ {fields : Fields α} {x : α},
    fields.All (fun _ codec => ∀ y, P _ codec y → Q _ codec y) → fields.Each P x →
      fields.Each Q x
  | .done, _, _, _ => trivial
  | .required _ _ _ _, (x, _), h, hx => ⟨h.1 x hx.1, mono h.2 hx.2⟩
  | .defaulted _ _ _ _ _, (x, _), h, hx => ⟨h.1 x hx.1, mono h.2 hx.2⟩
  | .optional _ _ _ _, (_, _), h, hx => ⟨fun y hy => h.1 y (hx.1 y hy), mono h.2 hx.2⟩
  | .loose _ _ _ _, (x, _), h, hx => ⟨fun hne => h.1 x (hx.1 hne), mono h.2 hx.2⟩

end Fields

/-- What the element is written as has a property. -/
def Codec.WrittenGood (good : Value → Prop) : Codec.Property := fun _ c x => good (c.write x)

namespace Fields

variable {good : Value → Prop}

/-- A row is written with a property when its elements are. -/
theorem good_of_each {α : Type} : ∀ {fields : Fields α} {x : α},
    fields.Each (Codec.WrittenGood good) x → ∀ e ∈ fields.encode x, good e.2
  | .done, _, _ => fun _ he => absurd he List.not_mem_nil
  | .required _ _ _ _, (_, _), h => List.forall_mem_cons.mpr ⟨h.1, good_of_each h.2⟩
  | .defaulted _ _ _ _ _, (_, _), h => List.forall_mem_cons.mpr ⟨h.1, good_of_each h.2⟩
  | .optional _ _ _ _, (some y, _), h =>
    List.forall_mem_cons.mpr ⟨h.1 y rfl, good_of_each h.2⟩
  | .optional _ _ _ rest, (none, _), h => @good_of_each _ rest _ h.2
  | .loose _ _ _ _, (x, _), h => by
    rw [encode]
    split
    · exact good_of_each h.2
    · rename_i hne
      exact List.forall_mem_cons.mpr ⟨h.1 hne, good_of_each h.2⟩

/-- The elements of a row are written with the properties that the row is written with. -/
theorem each_good {α : Type} : ∀ {fields : Fields α} {x : α},
    (∀ e ∈ fields.encode x, good e.2) → fields.Each (Codec.WrittenGood good) x
  | .done, _, _ => trivial
  | .required _ _ _ _, (_, _), h =>
    ⟨(List.forall_mem_cons.mp h).1, each_good (List.forall_mem_cons.mp h).2⟩
  | .defaulted _ _ _ _ _, (_, _), h =>
    ⟨(List.forall_mem_cons.mp h).1, each_good (List.forall_mem_cons.mp h).2⟩
  | .optional _ _ _ _, (none, _), h => ⟨nofun, each_good h⟩
  | .optional _ _ _ _, (some _, _), h =>
    ⟨fun _ hy => Option.mem_some.mp hy ▸ (List.forall_mem_cons.mp h).1,
      each_good (List.forall_mem_cons.mp h).2⟩
  | .loose _ _ _ _, (x, _), h => by
    rw [encode] at h
    split at h
    · rename_i hnull
      exact ⟨fun hne => absurd hnull hne, each_good h⟩
    · obtain ⟨hx, hrest⟩ := List.forall_mem_cons.mp h
      exact ⟨fun _ => hx, each_good hrest⟩

end Fields

/-! ## Regular fields -/

namespace Codec

/-- No element is written as null. -/
def NeverNull {α : Type} (c : Codec α) : Prop := ∀ x, c.write x ≠ .null

/-- Null and nothing else is written as null, and null is the same as itself. -/
structure KeepsNull (c : Codec Value) : Prop where
  null : c.write .null = .null
  write : ∀ {x}, x ≠ .null → c.write x ≠ .null
  same : c.same .null .null = true

/-- The element is what some value is read as. -/
def Given {α : Type} (c : Codec α) (x : α) : Prop := ∃ v, c.read v = some x

theorem neverNull_text : text.NeverNull := fun _ => nofun

theorem neverNull_flag : flag.NeverNull := fun _ => nofun

theorem neverNull_count : count.NeverNull := fun _ => nofun

theorem neverNull_duration : duration.NeverNull := fun _ => nofun

theorem neverNull_mapOf {α : Type} (values : Codec α) : (mapOf values).NeverNull := fun _ => nofun

theorem neverNull_textMap : textMap.NeverNull := neverNull_mapOf text

theorem neverNull_valueMap : valueMap.NeverNull := neverNull_mapOf any

theorem neverNull_list {α : Type} (items : Codec α) : (list items).NeverNull := fun _ => nofun

theorem KeepsNull.write_eq_null {c : Codec Value} (h : c.KeepsNull) {x : Value} :
    c.write x = .null ↔ x = .null :=
  ⟨fun hnull => Classical.byContradiction fun hx => h.write hx hnull, fun hx => hx ▸ h.null⟩

theorem keepsNull_anyText : anyText.KeepsNull := ⟨rfl, id, rfl⟩

theorem keepsNull_anyMap {α : Type} (values : Codec α) : (anyMap values).KeepsNull where
  null := rfl
  write {x} hx := by
    cases x with
    | null => exact absurd rfl hx
    | _ => exact nofun
  same := rfl

end Codec

theorem Schema.neverNull_codec {α : Type} (s : Schema α) : s.codec.NeverNull := fun _ => nofun

namespace Fields

/-- What stands for an absent field is told from what is written, and what it stands for
could also have been read. -/
def Plain {α : Type} : Fields α → Prop
  | .done => True
  | .required _ _ _ rest => rest.Plain
  | .defaulted _ _ codec value rest => codec.Given value ∧ rest.Plain
  | .optional _ _ codec rest => codec.NeverNull ∧ rest.Plain
  | .loose _ _ codec rest => codec.KeepsNull ∧ rest.Plain

/-- What stands for absent fields has been given. -/
theorem Plain.defaults {α : Type} :
    ∀ {fields : Fields α}, fields.Plain → fields.Defaults @Codec.Given
  | .done, _ => trivial
  | .required _ _ _ rest, h => @Plain.defaults _ rest h
  | .defaulted _ _ _ _ _, h => ⟨h.1, h.2.defaults⟩
  | .optional _ _ _ _, h => h.2.defaults
  | .loose _ _ _ _, h => h.2.defaults

/-- No two fields share a key, and absent fields are told from others. -/
structure Regular {α : Type} (fields : Fields α) : Prop where
  keys : fields.keys.Nodup
  plain : fields.Plain

/-! ## Reading -/

theorem readField_eq_ok {β : Type} {record name label : String} {codec : Codec β} {v : Value}
    {x : β} : readField record name label codec v = .ok x ↔ codec.read v = some x := by
  unfold readField
  split <;> simp_all

theorem map_some_eq_ok {β : Type} {m : Except DecodeError β} {x : Option β} :
    some <$> m = .ok x ↔ ∃ y, m = .ok y ∧ x = some y := by
  rcases m with e | y <;> simp [Functor.map, Except.map, eq_comm]

/-- A field and those after it are read when both are. -/
theorem bind_pair_eq_ok {β γ : Type} {m : Except DecodeError β} {n : Except DecodeError γ}
    {x : β} {xs : γ} :
    (m >>= fun a => n >>= fun b => pure (a, b)) = .ok (x, xs) ↔ m = .ok x ∧ n = .ok xs := by
  rcases m with e | a <;> rcases n with e' | b <;>
    simp [bind, Except.bind, pure, Except.pure]

section

variable {β γ : Type} {record name key : String} {codec : Codec β} {rest : Fields γ}
  {entries : Entries} {x : β} {xs : γ}

theorem decode_required :
    (required name key codec rest).decode record entries = .ok (x, xs) ↔
      (∃ v, Entries.get? entries key = some v ∧ codec.read v = some x) ∧
        rest.decode record entries = .ok xs := by
  rw [decode]
  split <;> rename_i hget <;> rw [bind_pair_eq_ok] <;> simp [hget, readField_eq_ok]

theorem decode_defaulted {value : β} :
    (defaulted name key codec value rest).decode record entries = .ok (x, xs) ↔
      (Entries.get? entries key = none ∧ x = value ∨
        ∃ v, Entries.get? entries key = some v ∧ codec.read v = some x) ∧
        rest.decode record entries = .ok xs := by
  rw [decode]
  split <;> rename_i hget <;> rw [bind_pair_eq_ok] <;> simp [hget, readField_eq_ok, @eq_comm _ x]

theorem decode_optional {x : Option β} :
    (optional name key codec rest).decode record entries = .ok (x, xs) ↔
      (Entries.getD entries key = .null ∧ x = none ∨
        Entries.getD entries key ≠ .null ∧
          ∃ y, codec.read (Entries.getD entries key) = some y ∧ x = some y) ∧
        rest.decode record entries = .ok xs := by
  rw [decode]
  split
  · rename_i hget
    rw [bind_pair_eq_ok]
    simp [hget, @eq_comm _ x]
  · rename_i hget
    have hne : Entries.getD entries key ≠ .null := hget
    rw [bind_pair_eq_ok]
    simp [hne, map_some_eq_ok, readField_eq_ok]

theorem decode_loose {codec : Codec Value} {x : Value} :
    (loose name key codec rest).decode record entries = .ok (x, xs) ↔
      (Entries.getD entries key = .null ∧ x = .null ∨
        Entries.getD entries key ≠ .null ∧ codec.read (Entries.getD entries key) = some x) ∧
        rest.decode record entries = .ok xs := by
  rw [decode]
  split
  · rename_i hget
    rw [bind_pair_eq_ok]
    simp [hget, @eq_comm _ x]
  · rename_i hget
    have hne : Entries.getD entries key ≠ .null := hget
    rw [bind_pair_eq_ok]
    simp [hne, readField_eq_ok]

end

/-- **What is read from the entries of a map has a property, field by field**, if all codecs
give it to what they read from such values, and what stands for absent fields has it. -/
theorem each_of_decode {P : Codec.Property} {good : Value → Prop} {record : String}
    {entries : Entries} (hentries : ∀ e ∈ entries, good e.2) {α : Type} :
    ∀ {fields : Fields α} {x : α},
      fields.All (fun _ c => ∀ v y, good v → c.read v = some y → P _ c y) → fields.Defaults P →
      fields.decode record entries = .ok x → fields.Each P x
  | .done, _, _, _, _ => trivial
  | .required _ _ _ _, (_, _), hall, hdefault, h => by
    obtain ⟨⟨v, hget, hread⟩, hrest⟩ := decode_required.mp h
    exact ⟨hall.1 v _ (hentries _ (Entries.mem_of_get? hget)) hread,
      each_of_decode hentries hall.2 hdefault hrest⟩
  | .defaulted _ _ _ _ _, (_, _), hall, hdefault, h => by
    obtain ⟨⟨_, rfl⟩ | ⟨v, hget, hread⟩, hrest⟩ := decode_defaulted.mp h
    · exact ⟨hdefault.1, each_of_decode hentries hall.2 hdefault.2 hrest⟩
    · exact ⟨hall.1 v _ (hentries _ (Entries.mem_of_get? hget)) hread,
        each_of_decode hentries hall.2 hdefault.2 hrest⟩
  | .optional _ _ _ _, (_, _), hall, hdefault, h => by
    obtain ⟨⟨_, rfl⟩ | ⟨hne, y, hread, rfl⟩, hrest⟩ := decode_optional.mp h
    · exact ⟨nofun, each_of_decode hentries hall.2 hdefault hrest⟩
    · exact ⟨fun _ hy => Option.mem_some.mp hy ▸
        hall.1 _ y (hentries _ (Entries.mem_of_getD hne)) hread,
        each_of_decode hentries hall.2 hdefault hrest⟩
  | .loose _ _ _ _, (_, _), hall, hdefault, h => by
    obtain ⟨⟨_, rfl⟩ | ⟨hne, hread⟩, hrest⟩ := decode_loose.mp h
    · exact ⟨fun hne => absurd rfl hne, each_of_decode hentries hall.2 hdefault hrest⟩
    · exact ⟨fun _ => hall.1 _ _ (hentries _ (Entries.mem_of_getD hne)) hread,
        each_of_decode hentries hall.2 hdefault hrest⟩

/-- What is read from the entries of a map has been given, field by field. -/
theorem each_given {α : Type} {record : String} {entries : Entries} {fields : Fields α} {x : α}
    (hplain : fields.Plain) (h : fields.decode record entries = .ok x) :
    fields.Each @Codec.Given x :=
  each_of_decode (fun _ _ => trivial)
    (All.of_forall fun _ _ v _ (_ : True) hread => ⟨v, hread⟩) hplain.defaults h

end Fields

/-- A record is read from a map that has no keys but its own. -/
theorem Schema.decode_eq_ok {α : Type} {s : Schema α} {v : Value} {x : α} :
    s.decode v = .ok x ↔ ∃ origin entries, v = .map origin entries ∧
      s.unknownKeys entries = [] ∧ s.fields.decode s.name entries = .ok (s.row x) := by
  constructor
  · intro h
    unfold decode at h
    split at h
    · split at h
      · rename_i origin entries _ hkeys
        obtain ⟨row, hrow, rfl⟩ := map_eq_ok.mp h
        exact ⟨origin, entries, rfl, hkeys, (s.row_build row).symm ▸ hrow⟩
      · cases h
    · cases h
  · rintro ⟨origin, entries, rfl, hkeys, hrow⟩
    unfold decode
    dsimp only
    rw [hkeys]
    exact map_eq_ok.mpr ⟨s.row x, hrow, s.build_row x⟩

/-- All record types have regular fields. -/
theorem RecordType.regular (t : RecordType) : t.schema.fields.Regular := by
  constructor
  · cases t <;> decide
  · cases t
    all_goals
      repeat' first
        | with_reducible exact Codec.neverNull_text
        | with_reducible exact Codec.neverNull_flag
        | with_reducible exact Codec.neverNull_count
        | with_reducible exact Codec.neverNull_duration
        | with_reducible exact Codec.neverNull_textMap
        | with_reducible exact Codec.neverNull_valueMap
        | with_reducible exact Codec.neverNull_list _
        | with_reducible exact Schema.neverNull_codec _
        | with_reducible exact Codec.keepsNull_anyText
        | with_reducible exact Codec.keepsNull_anyMap _
        | exact ⟨.bool false, rfl⟩
        | exact ⟨.str "", rfl⟩
        | exact ⟨.map none [], rfl⟩
        | exact trivial
        | constructor

/-! ## The codecs that records are made of -/

/-- A property of codecs that collections and records take from the codecs they are made
of. -/
structure Codec.Closed (C : (α : Type) → Codec α → Prop) : Prop where
  text : C _ Codec.text
  any : C _ Codec.any
  anyText : C _ Codec.anyText
  flag : C _ Codec.flag
  count : C _ Codec.count
  map : ∀ {α : Type} {values : Codec α}, C _ values → C _ (Codec.mapOf values)
  anyMap : ∀ {α : Type} {values : Codec α}, C _ values → C _ (Codec.anyMap values)
  list : ∀ {α : Type} {items : Codec α}, C _ items → C _ (Codec.list items)
  record : ∀ t : RecordType, t.schema.fields.All C → C _ t.schema.codec

namespace RecordType

/-- Whether a duration may be in a record. -/
def isTimed : RecordType → Bool
  | .appSpec | .app | .installSpec | .packageInstall | .package => true
  | _ => false

/-- Nothing is in a record but these codecs, to any depth: what is closed holds of the
codecs of all record types. A record type only contains others that stand before it. -/
theorem closed {C : (α : Type) → Codec α → Prop} (hC : Codec.Closed C) :
    ∀ t : RecordType, (t.isTimed = true → C _ Codec.duration) → C _ t.schema.codec
  | .bare, _ => hC.record .bare trivial
  | .objectRef, _ => hC.record .objectRef ⟨hC.anyText, trivial⟩
  | .filesRef, _ => hC.record .filesRef ⟨hC.anyText, hC.text, trivial⟩
  | .inlineSource, _ => hC.record .inlineSource
    ⟨closed hC .filesRef nofun, closed hC .filesRef nofun, trivial⟩
  | .inline, _ => hC.record .inline
    ⟨hC.map hC.text, hC.list (closed hC .inlineSource nofun), trivial⟩
  | .image, _ => hC.record .image
    ⟨hC.text, closed hC .objectRef nofun, hC.text, hC.map hC.any, trivial⟩
  | .http, _ => hC.record .http
    ⟨hC.text, hC.text, closed hC .objectRef nofun, hC.text, trivial⟩
  | .git, _ => hC.record .git
    ⟨hC.text, hC.text, hC.map hC.any, closed hC .objectRef nofun, hC.flag, hC.text, hC.count,
      hC.flag, trivial⟩
  | .repository, _ => hC.record .repository ⟨hC.text, closed hC .objectRef nofun, trivial⟩
  | .helmChart, _ => hC.record .helmChart
    ⟨hC.text, hC.text, closed hC .repository nofun, trivial⟩
  | .bundle, _ => hC.record .bundle
    ⟨hC.text, closed hC .objectRef nofun, hC.map hC.any, trivial⟩
  | .fetchStep, _ => hC.record .fetchStep
    ⟨closed hC .inline nofun, closed hC .image nofun, closed hC .http nofun,
      closed hC .git nofun, closed hC .helmChart nofun, closed hC .bundle nofun, hC.text,
      trivial⟩
  | .valuesRef, _ => hC.record .valuesRef ⟨hC.anyText, trivial⟩
  | .valuesSource, _ => hC.record .valuesSource
    ⟨closed hC .valuesRef nofun, closed hC .valuesRef nofun, hC.text, hC.map hC.any, trivial⟩
  | .ytt, _ => hC.record .ytt
    ⟨hC.flag, hC.flag, closed hC .inline nofun, hC.list hC.text, hC.list hC.text,
      hC.list (closed hC .valuesSource nofun), trivial⟩
  | .helm, _ => hC.record .helm
    ⟨hC.anyText, hC.anyText, hC.text, hC.list (closed hC .valuesSource nofun), hC.text,
      hC.map hC.any, trivial⟩
  | .templateStep, _ => hC.record .templateStep
    ⟨closed hC .ytt nofun, closed hC .helm nofun, hC.map hC.any, hC.map hC.any, hC.map hC.any,
      trivial⟩
  | .kubeconfigRef, _ => hC.record .kubeconfigRef ⟨hC.text, hC.text, trivial⟩
  | .cluster, _ => hC.record .cluster ⟨hC.text, closed hC .kubeconfigRef nofun, trivial⟩
  | .appSpec, h => hC.record .appSpec
    ⟨hC.list (closed hC .fetchStep nofun), hC.list (closed hC .templateStep nofun),
      hC.list (hC.map hC.any), hC.text, h rfl, hC.flag, hC.flag, hC.flag, closed hC .cluster nofun,
      hC.text, trivial⟩
  | .ownerReference, _ => hC.record .ownerReference
    ⟨hC.text, hC.text, hC.anyText, hC.anyText, hC.flag, hC.flag, trivial⟩
  | .app, h => hC.record .app
    ⟨hC.anyText, hC.anyText, hC.anyText, hC.anyText, hC.anyMap hC.text,
      hC.anyMap hC.text,
      hC.list (closed hC .ownerReference nofun), closed hC .appSpec h, hC.anyMap hC.any,
      trivial⟩
  | .versionSelection, _ => hC.record .versionSelection ⟨hC.text, hC.map hC.any, trivial⟩
  | .packageRef, _ => hC.record .packageRef
    ⟨hC.text, closed hC .versionSelection nofun, trivial⟩
  | .installValuesRef, _ => hC.record .installValuesRef ⟨hC.text, hC.text, trivial⟩
  | .installValues, _ => hC.record .installValues ⟨closed hC .installValuesRef nofun, trivial⟩
  | .installSpec, h => hC.record .installSpec
    ⟨hC.text, h rfl, closed hC .packageRef nofun, hC.list (closed hC .installValues nofun),
      hC.flag, hC.flag, hC.flag, closed hC .cluster nofun, hC.text, trivial⟩
  | .packageInstall, h => hC.record .packageInstall
    ⟨hC.anyText, hC.anyText, hC.anyText, hC.anyMap hC.text, closed hC .installSpec h,
      trivial⟩
  | .package, h => hC.record .package
    ⟨hC.anyText, hC.anyText, hC.anyText, hC.text, closed hC .appSpec h, trivial⟩
termination_by t => t.ctorIdx
decreasing_by all_goals decide

end RecordType

/-! ## Inherited properties -/

/-- A property that collections and records take from their parts. Text and flags have it
in any case. -/
structure Codec.Inherited (P : Codec.Property) : Prop where
  text : ∀ s, P _ Codec.text s
  anyText : ∀ s, P _ Codec.anyText (.str s)
  flag : ∀ b, P _ Codec.flag b
  list : ∀ {α : Type} {items : Codec α} {xs : List α},
    P _ (Codec.list items) xs ↔ ∀ x ∈ xs, P _ items x
  record : ∀ (t : RecordType) {x : t.Carrier},
    P _ t.schema.codec x ↔ t.schema.fields.Each P (t.schema.row x)

end AppSynthesis
