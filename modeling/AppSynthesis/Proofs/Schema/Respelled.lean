/-
AppSynthesis.Proofs.Schema.Respelled — elements that are the same are written alike.

* `Codec.Respelled` — what an element is written as is alike what one that is the same is
  written as.
* `Codec.respelled_list`, `Codec.respelled_mapOf`, `Schema.respelled_codec` — collections and
  records of such parts are written alike; so `RecordType.respelled`, all records are.
* `Resource.respelled` — and resources are.

Fields of text, flags and durations are the same only when they are equal. It is in the fields
that hold any value that `Value.agrees` decides, and that is where numbers may be spelled in
different ways.
-/
import AppSynthesis.Proofs.Schema.Hereditary
import AppSynthesis.Proofs.Value.Spelling

namespace AppSynthesis

/-! ## Codecs -/

namespace Codec

/-- What an element is written as is alike what one that is the same is written as, if no map
has a key twice in the one and the other has text keys and no timestamps. -/
def Respelled {α : Type} (c : Codec α) : Prop :=
  ∀ x y, c.same x y = true → c.Distinct x → (c.write y).isJson = true →
    (c.write x).Respells (c.write y)

/-- Elements that are the same only when they are equal are written as the same. -/
theorem respelled_of_eq {α : Type} {c : Codec α} (h : ∀ x y, c.same x y = true → x = y) :
    c.Respelled := by
  intro x y hsame _ hjson
  obtain rfl := h x y hsame
  exact Value.respells_self hjson

theorem respelled_text : text.Respelled := respelled_of_eq fun _ _ => eq_of_beq

theorem respelled_flag : flag.Respelled := respelled_of_eq fun _ _ => eq_of_beq

theorem respelled_count : count.Respelled := respelled_of_eq fun _ _ => eq_of_beq

theorem respelled_duration : duration.Respelled := respelled_of_eq fun _ _ => eq_of_beq

theorem respelled_any : any.Respelled := fun _ _ => Value.respells_of_agrees

theorem respelled_anyText : anyText.Respelled := fun _ _ => Value.respells_of_agrees

theorem respelled_anyMap {α : Type} (values : Codec α) : (anyMap values).Respelled := by
  intro v w hsame hv hw
  refine Value.respells_of_agrees ?_ hv hw
  show v.detached.agrees w.detached = true
  revert hsame
  cases v <;> cases w <;> exact id

theorem respelled_list {α : Type} {items : Codec α} (h : items.Respelled) :
    (list items).Respelled := by
  intro xs ys hsame hxs hys
  obtain ⟨hlength, hitems⟩ := Bool.and_eq_true_iff.mp hsame
  refine Value.respells_list (List.forall₂_map_left_iff.mpr (List.forall₂_map_right_iff.mpr ?_))
  refine List.forall₂_iff_zip.mpr ⟨eq_of_beq hlength, fun {x y} hxy => ?_⟩
  obtain ⟨hx, hy⟩ := List.of_mem_zip hxy
  exact h x y (List.all_eq_true.mp hitems _ hxy)
    (Value.itemsDistinct_iff.mp hxs _ (List.mem_map_of_mem hx))
    (Value.itemsJson_iff.mp hys _ (List.mem_map_of_mem hy))

/-- What is found under a key of a map is written under that key. -/
theorem get?_map_write {α : Type} (values : Codec α) (m : TextMap α) (key : String) :
    Entries.get? (m.map fun e => (Value.str e.1, values.write e.2)) key =
      (m.get? key).map values.write := by
  unfold Entries.get? TextMap.get?
  rw [List.find?_map, Option.map_map, Option.map_map]
  simp only [Function.comp_def, Value.str.injEq]

theorem respelled_mapOf {α : Type} {values : Codec α} (h : values.Respelled) :
    (mapOf values).Respelled := by
  intro m n hsame hm hn
  obtain ⟨hlength, hentries⟩ := Bool.and_eq_true_iff.mp hsame
  have htext := isText_of_mem_map values m
  have hnodup := Value.nodup_of_entriesDistinct hm htext
  refine Value.respells_map hnodup htext (Entries.rel_get? hnodup ?_ fun e he => ?_)
  · rw [List.length_map, List.length_map]
    exact eq_of_beq hlength
  · obtain ⟨⟨key, x⟩, hmem, rfl⟩ := List.mem_map.mp he
    have hentry := List.all_eq_true.mp hentries _ hmem
    split at hentry
    · cases hentry
    · rename_i y hget
      have hfound : Entries.get? (n.map fun e => (Value.str e.1, values.write e.2)) key =
          some (values.write y) := by rw [get?_map_write, hget, Option.map_some]
      exact ⟨key, _, rfl, hfound, h x y hentry ((Value.entriesDistinct_iff.mp hm).2 _ he).2
        ((Value.entriesJson_iff.mp hn).2 _ (Entries.mem_of_get? hfound)).2⟩

end Codec

/-! ## Records -/

namespace Fields

/-- The same is found, but for its spelling, under the keys of two rows that are the same. -/
theorem rel_get?_of_same {a b : Entries} {α : Type} : ∀ {fields : Fields α} {x y : α},
    fields.Plain → fields.All @Codec.Respelled → fields.same x y = true →
      fields.Each @Codec.Distinct x → fields.Each (Codec.WrittenGood fun v => v.isJson = true) y →
      fields.WrittenIn a x → fields.WrittenIn b y →
      ∀ key ∈ fields.keys, Option.Rel Value.Respells (Entries.get? a key) (Entries.get? b key)
  | .done, _, _, _, _, _, _, _, _, _ => nofun
  | .required _ _ _ _, (x, _), (y, _), hplain, hfields, hsame, hx, hy, ha, hb => by
    obtain ⟨hsame, hrest⟩ := Bool.and_eq_true_iff.mp hsame
    refine List.forall_mem_cons.mpr ⟨?_,
      rel_get?_of_same hplain hfields.2 hrest hx.2 hy.2 ha.2 hb.2⟩
    rw [ha.1, hb.1]
    exact .some (hfields.1 x y hsame hx.1 hy.1)
  | .defaulted _ _ _ _ _, (x, _), (y, _), hplain, hfields, hsame, hx, hy, ha, hb => by
    obtain ⟨hsame, hrest⟩ := Bool.and_eq_true_iff.mp hsame
    refine List.forall_mem_cons.mpr ⟨?_,
      rel_get?_of_same hplain.2 hfields.2 hrest hx.2 hy.2 ha.2 hb.2⟩
    rw [ha.1, hb.1]
    exact .some (hfields.1 x y hsame hx.1 hy.1)
  | .optional _ _ _ _, (x, _), (y, _), hplain, hfields, hsame, hx, hy, ha, hb => by
    obtain ⟨hsame, hrest⟩ := Bool.and_eq_true_iff.mp hsame
    refine List.forall_mem_cons.mpr ⟨?_,
      rel_get?_of_same hplain.2 hfields.2 hrest hx.2 hy.2 ha.2 hb.2⟩
    rw [ha.1, hb.1]
    rcases x with _ | x <;> rcases y with _ | y
    · exact .none
    · cases hsame
    · cases hsame
    · exact .some (hfields.1 x y hsame (hx.1 x rfl) (hy.1 y rfl))
  | .loose _ _ codec _, (x, _), (y, _), hplain, hfields, hsame, hx, hy, ha, hb => by
    obtain ⟨hsame, hrest⟩ := Bool.and_eq_true_iff.mp hsame
    refine List.forall_mem_cons.mpr ⟨?_,
      rel_get?_of_same hplain.2 hfields.2 hrest hx.2 hy.2 ha.2 hb.2⟩
    rw [ha.1, hb.1]
    have hdistinct : codec.Distinct x := by
      by_cases hnull : x = .null
      · exact congrArg Value.keysDistinct (hplain.1.write_eq_null.mpr hnull)
      · exact hx.1 hnull
    have hjson : (codec.write y).isJson = true := by
      by_cases hnull : y = .null
      · exact congrArg Value.isJson (hplain.1.write_eq_null.mpr hnull)
      · exact hy.1 hnull
    have hrel := hfields.1 x y hsame hdistinct hjson
    -- The one is absent when the other is.
    have hnull : x = .null ↔ y = .null :=
      hplain.1.write_eq_null.symm.trans (hrel.eq_null.trans hplain.1.write_eq_null)
    by_cases hx : x = .null
    · rw [if_pos hx, if_pos (hnull.mp hx)]
      exact .none
    · rw [if_neg hx, if_neg (hnull.not.mp hx)]
      exact .some hrel

end Fields

namespace Schema

variable {α : Type} {s : Schema α}

/-- Records of fields that are written alike are written alike. -/
theorem respelled_codec (h : s.fields.Regular) (hfields : s.fields.All @Codec.Respelled) :
    s.codec.Respelled := by
  intro x y hsame hx hy
  have hjson : s.fields.Each (Codec.WrittenGood fun v => v.isJson = true) (s.row y) :=
    Fields.each_good fun e he => ((Value.entriesJson_iff.mp hy).2 e he).2
  have hrel := Fields.rel_get?_of_same h.plain hfields hsame (each_distinct hx) hjson
    (writtenIn_encode h) (writtenIn_encode h)
  have htext : ∀ e ∈ s.fields.encode (s.row x), e.1.isText = true := fun e he => by
    obtain ⟨_, _, hkey⟩ := Fields.key_of_mem_encode e he
    exact hkey ▸ rfl
  refine Value.respells_map (Value.nodup_of_entriesDistinct hx htext) htext fun key => ?_
  by_cases hkey : key ∈ s.fields.keys
  · exact hrel key hkey
  · rw [Fields.get?_encode_of_not_mem hkey, Fields.get?_encode_of_not_mem hkey]
    exact .none

end Schema

/-- To be written alike is closed. -/
theorem Codec.closed_respelled : Closed @Respelled where
  text := respelled_text
  any := respelled_any
  anyText := respelled_anyText
  flag := respelled_flag
  count := respelled_count
  map := respelled_mapOf
  anyMap {_ values} _ := respelled_anyMap values
  list := respelled_list
  record t := Schema.respelled_codec t.regular

/-- **Records of all types that are the same are written alike.** -/
theorem RecordType.respelled (t : RecordType) : t.schema.codec.Respelled :=
  t.closed Codec.closed_respelled fun _ => Codec.respelled_duration

/-- Resources that are the same are written alike. -/
theorem Resource.respelled {a b : Resource} (h : a.same b = true)
    (ha : a.document.keysDistinct = true) (hb : b.document.isJson = true) :
    a.document.Respells b.document := by
  cases a <;> cases b <;> try cases h
  · exact RecordType.respelled .app _ _ h ha hb
  · exact RecordType.respelled .packageInstall _ _ h ha hb
  · exact RecordType.respelled .package _ _ h ha hb

end AppSynthesis
