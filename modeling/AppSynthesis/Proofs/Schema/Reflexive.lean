/-
AppSynthesis.Proofs.Schema.Reflexive — a record is the same as itself.

* `Codec.SelfSame`, `Codec.Distinct` — an element is the same as itself; no map has a key
  twice in what it is written as.
* `Codec.Reflexive` — the one follows from the other. `Codec.reflexive_list`,
  `Codec.reflexive_mapOf`, `Schema.reflexive_codec`, collections and records of reflexive
  parts are reflexive, and so `RecordType.reflexive`, all records are.
* `Codec.inherited_selfSame` — to be the same as itself is inherited.
* `Resource.document` — the document of a resource, and `Resource.same_self`, that a
  resource is the same as itself.

Only the codecs that hold any value need the condition; `Value.agrees_self` is what they
come down to.
-/
import AppSynthesis.Proofs.Schema.Fields
import AppSynthesis.Proofs.Schema.TextMap
import AppSynthesis.Proofs.Value.Distinct

namespace AppSynthesis

/-- A collection of its own has the same maps in it. -/
theorem Value.keysDistinct_detached (v : Value) : v.detached.keysDistinct = v.keysDistinct := by
  cases v <;> rfl

/-! ## Codecs -/

/-- The element is the same as itself. -/
def Codec.SelfSame {α : Type} (c : Codec α) (x : α) : Prop := c.same x x = true

/-- No map has a key twice in what the element is written as. -/
def Codec.Distinct {α : Type} (c : Codec α) (x : α) : Prop := (c.write x).keysDistinct = true

/-- An element is the same as itself, if no map has a key twice in what it is written
as. -/
def Codec.Reflexive {α : Type} (c : Codec α) : Prop := ∀ x, c.Distinct x → c.SelfSame x

namespace Codec

theorem reflexive_text : text.Reflexive := fun x _ => beq_self_eq_true x

theorem reflexive_flag : flag.Reflexive := fun x _ => beq_self_eq_true x

theorem reflexive_count : count.Reflexive := fun x _ => beq_self_eq_true x

theorem reflexive_duration : duration.Reflexive := fun x _ => beq_self_eq_true x

theorem reflexive_any : any.Reflexive := Value.agrees_self

theorem reflexive_anyText : anyText.Reflexive := Value.agrees_self

theorem reflexive_anyMap {α : Type} (values : Codec α) : (anyMap values).Reflexive :=
  fun v h => Value.agrees_self v (v.keysDistinct_detached ▸ h)

/-- A list is the same as itself when its items are. -/
theorem list_same_self {α : Type} {items : Codec α} {xs : List α} :
    (list items).same xs xs = true ↔ ∀ x ∈ xs, items.same x x = true := by
  have hzip : (xs.zip xs).all (fun p => items.same p.1 p.2) = xs.all fun x => items.same x x := by
    induction xs with
    | nil => rfl
    | cons x rest ih => rw [List.zip_cons_cons, List.all_cons, List.all_cons, ih]
  unfold list
  dsimp only
  rw [hzip, beq_self_eq_true, Bool.true_and, List.all_eq_true]

theorem reflexive_list {α : Type} {items : Codec α} (h : items.Reflexive) :
    (list items).Reflexive := fun _ hxs => list_same_self.mpr fun x hx =>
  h x (Value.itemsDistinct_iff.mp hxs _ (List.mem_map_of_mem hx))

/-- A map is written under keys that are text. -/
theorem isText_of_mem_map {α : Type} (values : Codec α) (m : TextMap α) :
    ∀ e ∈ m.map (fun e => (Value.str e.1, values.write e.2)), e.1.isText = true := fun e he => by
  obtain ⟨_, _, rfl⟩ := List.mem_map.mp he
  rfl

/-- A map has no key twice when what it is written as has none. -/
theorem unique_of_distinct {α : Type} {values : Codec α} {m : TextMap α}
    (h : (mapOf values).Distinct m) : m.Unique := by
  have hnodup := Value.nodup_of_entriesDistinct h (isText_of_mem_map values m)
  rw [List.map_map] at hnodup
  exact TextMap.unique_iff.mpr ((List.pairwise_map.mp hnodup).imp fun hne heq =>
    hne (congrArg Value.str heq))

theorem reflexive_mapOf {α : Type} {values : Codec α} (h : values.Reflexive) :
    (mapOf values).Reflexive := by
  intro m hm
  have hunique := unique_of_distinct hm
  have hall := (Value.entriesDistinct_iff.mp hm).2
  have hvalues : ∀ e ∈ m, values.same e.2 e.2 = true := fun e he =>
    h e.2 (hall _ (List.mem_map_of_mem he)).2
  refine Bool.and_eq_true_iff.mpr ⟨beq_self_eq_true _, List.all_eq_true.mpr fun e he => ?_⟩
  rw [(TextMap.get?_eq_some_iff hunique).mpr he]
  exact hvalues e he

end Codec

/-! ## Records -/

namespace Fields

theorem same_self_iff {α : Type} : ∀ {fields : Fields α} {x : α}, fields.Plain →
    (fields.same x x = true ↔ fields.Each @Codec.SelfSame x)
  | .done, _, _ => by simp [Fields.same, Each]
  | .required _ _ _ _, (_, _), h => by
    rw [Fields.same, Bool.and_eq_true]
    exact and_congr_right' (same_self_iff h)
  | .defaulted _ _ _ _ _, (_, _), h => by
    simp [Fields.same, Each, Codec.SelfSame, same_self_iff h.2]
  | .optional _ _ _ _, (none, _), h => by simp [Fields.same, Each, same_self_iff h.2]
  | .optional _ _ _ _, (some _, _), h => by
    simp [Fields.same, Each, Codec.SelfSame, same_self_iff h.2]
  | .loose _ _ codec _, (x, _), h => by
    have hx : codec.same x x = true ↔ (x ≠ .null → codec.same x x = true) :=
      ⟨fun hsame _ => hsame, fun hsame => (Classical.em (x = .null)).elim
        (fun hnull => hnull ▸ h.1.same) hsame⟩
    rw [Fields.same, Each, Bool.and_eq_true, same_self_iff h.2]
    exact and_congr_left' hx

end Fields

namespace Schema

variable {α : Type} {s : Schema α} {x : α}

/-- No map has a key twice in what any field of a record is written as, when none has in
the document of the record. -/
theorem each_distinct (h : (s.encode x).keysDistinct = true) :
    s.fields.Each @Codec.Distinct (s.row x) := by
  have hentries : ∀ e ∈ s.fields.encode (s.row x), e.2.keysDistinct = true := fun e he =>
    ((Value.entriesDistinct_iff.mp h).2 e he).2
  exact @Fields.each_good (fun v => v.keysDistinct = true) _ _ _ hentries

/-- A record is the same as itself when its fields are. -/
theorem same_self_iff (h : s.fields.Plain) :
    s.codec.SelfSame x ↔ s.fields.Each @Codec.SelfSame (s.row x) := Fields.same_self_iff h

/-- A record of reflexive fields is reflexive. -/
theorem reflexive_codec (h : s.fields.Plain) (hfields : s.fields.All @Codec.Reflexive) :
    s.codec.Reflexive := fun _ hx => (same_self_iff h).mpr ((each_distinct hx).mono hfields)

end Schema

namespace Codec

/-- To be the same as itself is inherited. -/
theorem inherited_selfSame : Inherited @SelfSame where
  text s := beq_self_eq_true s
  anyText _ := Value.agrees_str.mpr rfl
  flag b := beq_self_eq_true b
  list := list_same_self
  record t := Schema.same_self_iff t.regular.plain

/-- To be reflexive is closed. -/
theorem closed_reflexive : Closed @Reflexive where
  text := reflexive_text
  any := reflexive_any
  anyText := reflexive_anyText
  flag := reflexive_flag
  count := reflexive_count
  map := reflexive_mapOf
  anyMap {_ values} _ := reflexive_anyMap values
  list := reflexive_list
  record t := Schema.reflexive_codec t.regular.plain

end Codec

/-- Records of all types are reflexive. -/
theorem RecordType.reflexive (t : RecordType) : t.schema.codec.Reflexive :=
  t.closed Codec.closed_reflexive fun _ => Codec.reflexive_duration

/-! ## Resources -/

/-- The document of a resource, without what tells its kind. -/
def Resource.document : Resource → Value
  | .app x => App.schema.encode x
  | .packageInstall x => PackageInstall.schema.encode x
  | .package x => Package.schema.encode x

/-- **A resource is the same as itself** if no map in its document has a key twice. -/
theorem Resource.same_self {obj : Resource} (h : obj.document.keysDistinct = true) :
    obj.same obj = true := by
  cases obj with
  | app x => exact RecordType.reflexive .app x h
  | packageInstall x => exact RecordType.reflexive .packageInstall x h
  | package x => exact RecordType.reflexive .package x h

end AppSynthesis
