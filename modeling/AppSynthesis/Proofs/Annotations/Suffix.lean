/-
AppSynthesis.Proofs.Annotations.Suffix — annotations that are repeated under keys
with a suffix.

* `Annotations.withSuffix` — the key with a suffix, and `suffix?_eq_some_iff`, that
  the suffix of a key is read off it without loss: no two keys have the same one.
* `Annotations.SuffixOrder` — what the values in the order of the suffixes are, and
  `Annotations.ordered_suffixOrder`, that `Annotations.ordered` gives them.
* `Annotations.ordered_congr` — the values in the order of the suffixes depend on
  nothing but the values under the keys with a suffix; the order in which these were
  given leaves no trace.
* `Annotations.get?_bySuffix` — what is under a suffix is what is under the key with it.
* `Annotations.suffixes_exact` — all of this for the annotations of several base keys at once,
  each of which may be the key of another with a suffix.

`Annotations.ordered_congr` is the uniqueness of sorting (`TextMap.mergeSort_congr`). It and the
one before need that the suffixes are distinct, which is where the first comes in: distinct keys
have distinct suffixes.
-/
import AppSynthesis.Annotations
import AppSynthesis.Proofs.Schema.TextMap

namespace AppSynthesis

/-! ## Keys and suffixes -/

namespace Annotations

/-- A base key with a suffix; with the empty one it is the base key itself. -/
def withSuffix (base suffix : String) : String :=
  if suffix = "" then base else base ++ "." ++ suffix

theorem dropStart?_eq_some_iff {rest : List Char} :
    ∀ {start cs : List Char}, dropStart? start cs = some rest ↔ cs = start ++ rest
  | [], cs => by simp [dropStart?]
  | _ :: _, [] => by simp [dropStart?]
  | s :: start, c :: cs => by
    rw [dropStart?]
    by_cases h : s = c
    · simp [h, dropStart?_eq_some_iff]
    · simp [h, Ne.symm h]

theorem toList_withSuffix (base suffix : String) :
    (withSuffix base suffix).toList =
      base.toList ++ if suffix = "" then [] else '.' :: suffix.toList := by
  unfold withSuffix
  split <;> simp [String.toList_append]

/-- **The suffix of a key determines the key.** -/
theorem suffix?_eq_some_iff {key base suffix : String} :
    suffix? key base = some suffix ↔ key = withSuffix base suffix := by
  constructor
  · intro h
    rw [← String.toList_inj, toList_withSuffix]
    unfold suffix? at h
    split at h
    · rename_i hrest
      obtain rfl := Option.some.inj h
      simpa using dropStart?_eq_some_iff.mp hrest
    · rename_i c rest hrest
      obtain rfl := Option.some.inj h
      have hne : String.ofList (c :: rest) ≠ "" := by simp
      rw [if_neg hne, String.toList_ofList]
      exact dropStart?_eq_some_iff.mp hrest
    · cases h
  · rintro rfl
    unfold suffix?
    rw [dropStart?_eq_some_iff.mpr (toList_withSuffix base suffix)]
    by_cases h : suffix = ""
    · simp [h]
    · obtain ⟨c, rest, hcs⟩ := List.exists_cons_of_ne_nil (mt String.toList_eq_nil_iff.mp h)
      rw [if_neg h, hcs]
      exact congrArg some (String.toList_inj.mp (String.toList_ofList.trans hcs.symm))

end Annotations

/-! ## Values in the order of the suffixes -/

namespace Annotations

variable {annotations : Annotations} {base : String}

theorem mem_bySuffix_iff {suffix : String} {value : Value} :
    (suffix, value) ∈ bySuffix annotations base ↔ (withSuffix base suffix, value) ∈ annotations := by
  unfold bySuffix
  simp only [List.mem_filterMap, Option.map_eq_some_iff, Prod.mk.injEq, suffix?_eq_some_iff]
  constructor
  · rintro ⟨⟨key, v⟩, hmem, s, hkey, rfl, rfl⟩
    exact hkey ▸ hmem
  · intro hmem
    exact ⟨_, hmem, suffix, rfl, rfl, rfl⟩

theorem bySuffix_unique (h : annotations.Unique) : (bySuffix annotations base).Unique := by
  rw [TextMap.unique_iff] at h ⊢
  unfold bySuffix
  rw [List.pairwise_filterMap]
  apply h.imp
  intro a b hne x hx y hy heq
  apply hne
  obtain ⟨s, hs, rfl⟩ := Option.map_eq_some_iff.mp hx
  obtain ⟨t, ht, rfl⟩ := Option.map_eq_some_iff.mp hy
  obtain rfl : s = t := heq
  exact (suffix?_eq_some_iff.mp hs).trans (suffix?_eq_some_iff.mp ht).symm

/-- Values are those under a base key and its suffixes, once each and in the order of the
suffixes. -/
def SuffixOrder (annotations : Annotations) (base : String) (values : List Value) : Prop :=
  ∃ entries : TextMap Value, entries.map (·.2) = values ∧
    (entries.Pairwise fun a b => a.1 < b.1) ∧
    ∀ suffix value, (suffix, value) ∈ entries ↔ (withSuffix base suffix, value) ∈ annotations

theorem ordered_suffixOrder (h : annotations.Unique) :
    annotations.SuffixOrder base (ordered annotations base) := by
  have hunique : (bySuffix annotations base).Pairwise fun a b => a.1 ≠ b.1 :=
    TextMap.unique_iff.mp (bySuffix_unique h)
  refine ⟨_, rfl, strict_sortBy Prod.fst hunique, fun suffix value => ?_⟩
  rw [List.mem_mergeSort, mem_bySuffix_iff]

/-- **The order of the annotations leaves no trace**: annotations with the same values
under a base key and its suffixes give the same values in the same order. -/
theorem ordered_congr {a b : Annotations} (ha : a.Unique) (hb : b.Unique)
    (h : ∀ suffix, a.get? (withSuffix base suffix) = b.get? (withSuffix base suffix)) :
    ordered a base = ordered b base := by
  unfold ordered
  rw [TextMap.mergeSort_congr (bySuffix_unique ha) (bySuffix_unique hb)]
  rintro ⟨suffix, value⟩
  rw [mem_bySuffix_iff, mem_bySuffix_iff, ← TextMap.get?_eq_some_iff ha,
    ← TextMap.get?_eq_some_iff hb, h suffix]

/-! ## Values under several base keys -/

@[simp] theorem withSuffix_empty (base : String) : withSuffix base "" = base := if_pos rfl

/-- What is under a suffix is what is under the key with it. -/
theorem get?_bySuffix (h : annotations.Unique) (suffix : String) :
    (bySuffix annotations base).get? suffix = annotations.get? (withSuffix base suffix) := by
  ext value
  rw [TextMap.get?_eq_some_iff (bySuffix_unique h), TextMap.get?_eq_some_iff h, mem_bySuffix_iff]

theorem get?_index (bases : List String) :
    (index annotations bases).get? base =
      if base ∈ bases then some (bySuffix annotations base) else none :=
  TextMap.get?_ofList_map (bySuffix annotations) bases base

/-- The value of the base key itself comes first. -/
theorem SuffixOrder.head? {values : List Value} (h : annotations.SuffixOrder base values)
    {value : Value} (hvalue : (base, value) ∈ annotations) : values.head? = some value := by
  obtain ⟨entries, rfl, hsorted, hmem⟩ := h
  have hbare : ("", value) ∈ entries := (hmem "" value).mpr (by simpa using hvalue)
  cases entries with
  | nil => cases hbare
  | cons first rest =>
    rcases List.mem_cons.mp hbare with rfl | hrest
    · rfl
    · -- No suffix comes before the empty one.
      have hlt : first.1 < "" := List.rel_of_pairwise_cons hsorted hrest
      exact absurd hlt (List.not_lt_nil first.1.toList)

/-- **What is under base keys and their suffixes.** For each base key, the value under a suffix is
the value under the key with this suffix, and there is none without one. The values of a base key
are listed in the order of the suffixes, once each and that of the base key itself first. Neither
depends on the order of the annotations. -/
theorem suffixes_exact (h : annotations.Unique) (bases : List String) (base : String) :
    (base ∈ bases → ∃ values, (index annotations bases).get? base = some values ∧ values.Unique ∧
      ∀ suffix value, values.get? suffix = some value ↔
        annotations.get? (withSuffix base suffix) = some value) ∧
    (base ∉ bases → (index annotations bases).get? base = none) ∧
    annotations.SuffixOrder base (ordered annotations base) ∧
    (∀ value, annotations.get? base = some value →
      (ordered annotations base).head? = some value) ∧
    (∀ other : Annotations, other.Perm annotations →
      ordered other base = ordered annotations base) := by
  refine ⟨fun hbase => ?_, fun hbase => ?_, ordered_suffixOrder h, fun value hvalue => ?_,
    fun other hperm => ?_⟩
  · refine ⟨bySuffix annotations base, ?_, bySuffix_unique h, fun suffix value => ?_⟩
    · rw [get?_index, if_pos hbase]
    · rw [get?_bySuffix h]
  · rw [get?_index, if_neg hbase]
  · exact (ordered_suffixOrder h).head? ((TextMap.get?_eq_some_iff h).mp hvalue)
  · have hother : other.Unique := (hperm.map Prod.fst).nodup_iff.mpr h
    exact ordered_congr hother h fun suffix => TextMap.get?_perm hother hperm _

/-- Of two base keys one is the other with a suffix, and a key may belong to both; two keys belong
to none. -/
theorem suffixes_exact_nested :
    ∃ (annotations : Annotations) (outer inner : TextMap Value),
      annotations = [("a.b.c", .str "3"), ("a.b", .str "2"), ("a.", .str "0"), ("ax", .str "0"),
        ("a", .str "1")] ∧
      (index annotations ["a", "a.b"]).get? "a" = some outer ∧
      (index annotations ["a", "a.b"]).get? "a.b" = some inner ∧
      outer.length = 3 ∧ outer.get? "b.c" = some (.str "3") ∧ inner.get? "c" = some (.str "3") ∧
      (ordered annotations "a").head? = some (.str "1") ∧
      ordered annotations.reverse "a" = ordered annotations "a" := by
  let annotations : Annotations := [("a.b.c", .str "3"), ("a.b", .str "2"), ("a.", .str "0"),
    ("ax", .str "0"), ("a", .str "1")]
  have hunique : annotations.Unique := by decide
  obtain ⟨houter, -, -, hhead, hperm⟩ := suffixes_exact hunique ["a", "a.b"] "a"
  obtain ⟨hinner, -⟩ := suffixes_exact hunique ["a", "a.b"] "a.b"
  obtain ⟨outer, houter, -, hgetOuter⟩ := houter (by decide)
  obtain ⟨inner, hinner, -, hgetInner⟩ := hinner (by decide)
  have hlength : outer.length = 3 := by
    obtain rfl := Option.some.inj (houter.symm.trans (get?_index _))
    decide +kernel
  exact ⟨annotations, outer, inner, rfl, houter, hinner, hlength,
    (hgetOuter "b.c" _).mpr (by decide +kernel), (hgetInner "c" _).mpr (by decide +kernel),
    hhead _ (by decide +kernel), hperm _ (List.reverse_perm annotations)⟩

end Annotations

end AppSynthesis
