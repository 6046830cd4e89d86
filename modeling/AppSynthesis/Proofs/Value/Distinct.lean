/-
AppSynthesis.Proofs.Value.Distinct — values in which no map has a key twice.

* `Value.keysDistinct` — no map in a value has a key twice. The entries of a map are
  kept in a list, which does not exclude it; no document has such a map.
* `Value.nodup_of_entriesDistinct` — keys that are text are distinct then.
* `Value.agrees_self` — such a value agrees with itself.
* `Entries.keysDistinct_insert` — writing under a text key gives no map a key twice.

A map is compared by looking up each of its keys in the other. That the entry which is
found there is the one that was looked for is what distinct keys are needed for.
-/
import AppSynthesis.Proofs.Value.Entries

namespace AppSynthesis

namespace Value

/-! ## Distinct keys -/

mutual

/-- Whether no map in a value has a key twice. -/
def keysDistinct : Value → Bool
  | .list _ items => itemsDistinct items
  | .map _ entries => entriesDistinct entries
  | _ => true

/-- Whether no map in the items of a list has a key twice. -/
def itemsDistinct : List Value → Bool
  | [] => true
  | v :: rest => keysDistinct v && itemsDistinct rest

/-- Whether no key is there twice, and no map in the entries has one twice either. -/
def entriesDistinct : Entries → Bool
  | [] => true
  | (k, v) :: rest =>
    (rest.all fun e => !e.1.agrees k) && keysDistinct k && keysDistinct v && entriesDistinct rest

end

theorem itemsDistinct_iff {items : List Value} :
    itemsDistinct items = true ↔ ∀ v ∈ items, v.keysDistinct = true := by
  induction items with
  | nil => simp [itemsDistinct]
  | cons v rest ih => simp [itemsDistinct, ih]

theorem entriesDistinct_iff {entries : Entries} :
    entriesDistinct entries = true ↔
      entries.Pairwise (fun a b => b.1.agrees a.1 = false) ∧
        ∀ e ∈ entries, e.1.keysDistinct = true ∧ e.2.keysDistinct = true := by
  induction entries with
  | nil => simp [entriesDistinct]
  | cons e rest ih =>
    obtain ⟨k, v⟩ := e
    simp only [entriesDistinct, Bool.and_eq_true, List.all_eq_true, Bool.not_eq_true', ih,
      List.pairwise_cons, List.forall_mem_cons]
    constructor
    · rintro ⟨⟨⟨hkey, hk⟩, hv⟩, hrest, hall⟩
      exact ⟨⟨hkey, hrest⟩, ⟨hk, hv⟩, hall⟩
    · rintro ⟨⟨hkey, hrest⟩, ⟨hk, hv⟩, hall⟩
      exact ⟨⟨⟨hkey, hk⟩, hv⟩, hrest, hall⟩

/-- Text keys of which none is there twice are distinct. -/
theorem nodup_of_entriesDistinct {entries : Entries} (h : entriesDistinct entries = true)
    (htext : ∀ e ∈ entries, e.1.isText = true) : (entries.map (·.1)).Nodup := by
  refine List.pairwise_map.mpr
    ((entriesDistinct_iff.mp h).1.imp_of_mem fun {a b} ha _ hne heq => ?_)
  exact Bool.eq_false_iff.mp hne ((agrees_of_isText (heq ▸ htext a ha)).mpr heq.symm)

/-! ## A value agrees with itself -/

theorem agrees_float (x : Binary64) : (Value.float x).agrees (.float x) = true := by
  cases x <;> simp [agrees, same, isNaN, Binary64.sameNumber]

mutual

/-- **A value agrees with itself** if no map in it has a key twice. -/
theorem agrees_self : ∀ v : Value, v.keysDistinct = true → v.agrees v = true
  | .null, _ => rfl
  | .bool b, _ => by simp [agrees, same]
  | .int n, _ => by simp [agrees, same]
  | .float x, _ => agrees_float x
  | .str s, _ => by simp
  | .stamp _ t, _ => by simp [agrees, same, Timestamp.same_iff]
  | .list _ items, h => by
    have hitems : sameItems items items = true := sameItems_self items h
    simp [agrees, same, hitems]
  | .map _ entries, h => by
    have hentries : sameEntries entries entries = true :=
      sameEntries_self [] entries (by simp) h
    simp [agrees, same, hentries]

theorem sameItems_self : ∀ items : List Value, itemsDistinct items = true →
    sameItems items items = true
  | [], _ => rfl
  | v :: rest, h => by
    rw [itemsDistinct, Bool.and_eq_true] at h
    have hv : v.agrees v = true := agrees_self v h.1
    unfold agrees at hv
    rw [sameItems, hv, sameItems_self rest h.2]
    rfl

/-- The entries that come first in a map do not stand in the way of the others. -/
theorem sameEntries_self : ∀ before entries : Entries,
    (∀ e ∈ before, ∀ e' ∈ entries, e'.1.agrees e.1 = false) →
    entriesDistinct entries = true → sameEntries entries (before ++ entries) = true
  | _, [], _, _ => rfl
  | before, (k, v) :: rest, hbefore, h => by
    rw [entriesDistinct, Bool.and_eq_true, Bool.and_eq_true, Bool.and_eq_true] at h
    obtain ⟨⟨⟨hkey, hk⟩, hv⟩, hrest⟩ := h
    have hk : k.agrees k = true := agrees_self k hk
    have hv : v.agrees v = true := agrees_self v hv
    have hfind : (before ++ (k, v) :: rest).find? (fun e => k.agrees e.1) = some (k, v) := by
      rw [List.find?_append, List.find?_eq_none.mpr fun e he => by
        simp [hbefore e he (k, v) List.mem_cons_self], Option.none_or]
      exact List.find?_cons_of_pos hk
    have hnext : ∀ e ∈ before ++ [(k, v)], ∀ e' ∈ rest, e'.1.agrees e.1 = false := by
      intro e he e' he'
      rcases List.mem_append.mp he with he | he
      · exact hbefore e he e' (List.mem_cons_of_mem _ he')
      · rw [List.mem_singleton.mp he]
        simpa using List.all_eq_true.mp hkey e' he'
    have hafter := sameEntries_self (before ++ [(k, v)]) rest hnext hrest
    rw [List.append_assoc, List.singleton_append] at hafter
    unfold agrees at hfind hv
    rw [sameEntries, hfind, hafter, Bool.and_true]
    exact hv

end

end Value

/-! ## Writing under a text key -/

/-- Writing under a text key gives no map a key twice. -/
theorem Entries.keysDistinct_insert {key : String} {value : Value}
    (hvalue : value.keysDistinct = true) :
    ∀ {entries : Entries}, Value.entriesDistinct entries = true →
      Value.entriesDistinct (Entries.insert entries (.str key) value) = true
  | [], _ => by simp [Entries.insert, Value.entriesDistinct, Value.keysDistinct, hvalue]
  | (k, v) :: rest, h => by
    obtain ⟨hkeys, hall⟩ := Value.entriesDistinct_iff.mp h
    have hrest : Value.entriesDistinct rest = true :=
      Value.entriesDistinct_iff.mpr
        ⟨(List.pairwise_cons.mp hkeys).2, fun e he => hall e (List.mem_cons_of_mem _ he)⟩
    rw [Entries.insert_cons]
    by_cases hk : k = .str key
    · rw [if_pos hk]
      exact Value.entriesDistinct_iff.mpr ⟨List.pairwise_cons.mpr (List.pairwise_cons.mp hkeys),
        List.forall_mem_cons.mpr ⟨⟨(hall _ List.mem_cons_self).1, hvalue⟩,
          fun e he => hall e (List.mem_cons_of_mem _ he)⟩⟩
    · rw [if_neg hk]
      obtain ⟨hkeys', hall'⟩ :=
        Value.entriesDistinct_iff.mp (@keysDistinct_insert key value hvalue rest hrest)
      refine Value.entriesDistinct_iff.mpr ⟨List.pairwise_cons.mpr ⟨fun e he => ?_, hkeys'⟩,
        List.forall_mem_cons.mpr ⟨hall _ List.mem_cons_self, hall'⟩⟩
      rcases Entries.mem_insert he with rfl | he
      · exact Bool.eq_false_iff.mpr fun hsame => hk (Value.str_agrees.mp hsame)
      · exact (List.pairwise_cons.mp hkeys).1 e he

end AppSynthesis
