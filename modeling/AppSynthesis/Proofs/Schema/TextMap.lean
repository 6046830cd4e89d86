/-
AppSynthesis.Proofs.Schema.TextMap — maps from text in which no key is repeated.

* `TextMap.Unique` — no key of a map is repeated.
* `TextMap.get?_eq_some_iff` — then what is found is what is there, and so
  `TextMap.get?_perm`, the order makes no difference to it.
* `TextMap.unique_ofList`, `TextMap.ofList_of_unique` — no key of a map that was put
  together from pairs is repeated, and then it is put together from its own entries.
* `TextMap.get?_insert`, `TextMap.get?_ofList_map` — what is found in such a map.
* `pairwise_sortBy`, `strict_sortBy` — sorting by texts, which are in strict order then if no
  two are the same.
* `TextMap.mergeSort_congr` — maps with the same entries are the same when they are
  sorted by their keys.
-/
import AppSynthesis.Schema.TextMap

namespace AppSynthesis

section

variable {β : Type} (key : β → String)

theorem pairwise_sortBy (l : List β) :
    (l.mergeSort fun a b => decide (key a ≤ key b)).Pairwise fun a b => key a ≤ key b := by
  have hpairwise := @List.pairwise_mergeSort _ (fun a b => decide (key a ≤ key b))
    (by simpa using fun a b c => String.le_trans) (by simp [String.le_total]) l
  simpa only [decide_eq_true_eq] using hpairwise

/-- Where no two texts are the same the order is strict. -/
theorem strict_sortBy {l : List β} (h : l.Pairwise fun a b => key a ≠ key b) :
    (l.mergeSort fun a b => decide (key a ≤ key b)).Pairwise fun a b => key a < key b := by
  have hne := h.perm (List.mergeSort_perm l fun a b => decide (key a ≤ key b)).symm Ne.symm
  refine (pairwise_sortBy key l).imp₂ (fun a b hle hne => ?_) hne
  exact String.not_le.mp fun hge => hne (String.le_antisymm hle hge)

end

namespace TextMap

variable {α : Type}

/-- No key of a map is repeated. -/
def Unique (m : TextMap α) : Prop := (m.map (·.1)).Nodup

instance (m : TextMap α) : Decidable m.Unique := inferInstanceAs (Decidable (List.Nodup _))

theorem unique_iff {m : TextMap α} : m.Unique ↔ m.Pairwise fun a b => a.1 ≠ b.1 :=
  List.pairwise_map

theorem nodup {m : TextMap α} (hm : m.Unique) : m.Nodup :=
  (unique_iff.mp hm).imp fun hne heq => hne (congrArg Prod.fst heq)

/-- What is found is what is there. -/
theorem get?_eq_some_iff {m : TextMap α} (hm : m.Unique) {key : String} {value : α} :
    m.get? key = some value ↔ (key, value) ∈ m := by
  induction m with
  | nil => simp [get?]
  | cons e rest ih =>
    obtain ⟨k, v⟩ := e
    obtain ⟨hk, hrest⟩ := List.nodup_cons.mp hm
    have ih := ih hrest
    unfold get? at ih ⊢
    by_cases h : k = key
    · subst h
      have hnot : (k, value) ∉ rest := fun hmem => hk (List.mem_map_of_mem (f := (·.1)) hmem)
      simp [hnot, eq_comm]
    · rw [List.find?_cons_of_neg (by simpa using h), ih]
      simp [Ne.symm h]

/-! ## Maps from pairs -/

theorem mem_insert {m : TextMap α} {key : String} {value : α} {e : String × α}
    (h : e ∈ m.insert key value) : e = (key, value) ∨ e ∈ m := by
  induction m with
  | nil => exact Or.inl (List.mem_singleton.mp h)
  | cons e' rest ih =>
    rw [insert] at h
    split at h
    · rename_i hk
      rcases List.mem_cons.mp h with rfl | h
      · exact Or.inl (hk ▸ rfl)
      · exact Or.inr (List.mem_cons_of_mem _ h)
    · rcases List.mem_cons.mp h with rfl | h
      · exact Or.inr List.mem_cons_self
      · exact (ih h).imp_right (List.mem_cons_of_mem _)

theorem unique_insert {m : TextMap α} (hm : m.Unique) (key : String) (value : α) :
    (m.insert key value).Unique := by
  induction m with
  | nil => exact List.nodup_cons.mpr ⟨List.not_mem_nil, List.nodup_nil⟩
  | cons e rest ih =>
    obtain ⟨hk, hrest⟩ := List.nodup_cons.mp hm
    rw [insert]
    split
    · exact hm
    · rename_i hne
      refine List.nodup_cons.mpr ⟨fun hmem => ?_, ih hrest⟩
      obtain ⟨e', he', hkey⟩ := List.mem_map.mp hmem
      rcases mem_insert he' with rfl | he'
      · exact hne hkey.symm
      · exact hk (List.mem_map.mpr ⟨e', he', hkey⟩)

/-- No key of a map that was put together from pairs is repeated. -/
theorem unique_ofList (pairs : List (String × α)) : (ofList pairs).Unique := by
  have hfold : ∀ m : TextMap α, m.Unique →
      Unique (pairs.foldl (fun m p => insert m p.1 p.2) m) := by
    induction pairs with
    | nil => exact fun m hm => hm
    | cons p rest ih => exact fun m hm => ih _ (unique_insert hm p.1 p.2)
  exact hfold [] List.nodup_nil

/-- What is in it was among the pairs. -/
theorem mem_of_mem_ofList {pairs : List (String × α)} {e : String × α} (h : e ∈ ofList pairs) :
    e ∈ pairs := by
  have hfold : ∀ m : TextMap α, e ∈ pairs.foldl (fun m p => insert m p.1 p.2) m →
      e ∈ m ∨ e ∈ pairs := by
    clear h
    induction pairs with
    | nil => exact fun m hm => Or.inl hm
    | cons p rest ih =>
      intro m hm
      rcases ih _ hm with hm | hrest
      · exact (mem_insert hm).symm.imp_right fun (heq : e = p) => heq ▸ List.mem_cons_self
      · exact Or.inr (List.mem_cons_of_mem _ hrest)
  exact (hfold [] h).resolve_left List.not_mem_nil

theorem get?_insert (m : TextMap α) (key : String) (value : α) (k : String) :
    (m.insert key value).get? k = if key = k then some value else m.get? k := by
  unfold get?
  induction m with
  | nil => by_cases h : key = k <;> simp [insert, h]
  | cons e rest ih =>
    obtain ⟨k', v⟩ := e
    by_cases hkey : k' = key
    · subst hkey
      by_cases h : k' = k <;> simp [insert, h]
    · by_cases hk : k' = k
      · subst hk
        simp [insert, hkey, Ne.symm hkey]
      · simp [insert, hkey, hk, ih]

/-- In a map from keys with one value each that value is found. -/
theorem get?_ofList_map (f : String → α) (keys : List String) (k : String) :
    (ofList (keys.map fun key => (key, f key))).get? k = if k ∈ keys then some (f k) else none := by
  have hfold : ∀ m : TextMap α,
      get? (keys.foldl (fun m key => insert m key (f key)) m) k =
        if k ∈ keys then some (f k) else get? m k := by
    induction keys with
    | nil => simp
    | cons key rest ih =>
      intro m
      rw [List.foldl_cons, ih, get?_insert]
      by_cases hk : key = k
      · simp [hk]
      · simp [hk, Ne.symm hk]
  unfold ofList
  rw [List.foldl_map, hfold]
  simp [get?]

theorem insert_of_not_mem {m : TextMap α} {key : String} (h : ∀ e ∈ m, e.1 ≠ key) (value : α) :
    m.insert key value = m ++ [(key, value)] := by
  induction m with
  | nil => rfl
  | cons e rest ih =>
    obtain ⟨hne, hrest⟩ := List.forall_mem_cons.mp h
    rw [insert, if_neg hne, ih hrest, List.cons_append]

/-- A map without repeated keys is put together from its entries. -/
theorem ofList_of_unique {m : TextMap α} (hm : m.Unique) : ofList m = m := by
  have hfold : ∀ (rest before : TextMap α), Unique (before ++ rest) →
      rest.foldl (fun m p => insert m p.1 p.2) before = before ++ rest := by
    intro rest
    induction rest with
    | nil => exact fun before _ => (List.append_nil before).symm
    | cons e rest ih =>
      intro before h
      have hnew : ∀ e' ∈ before, e'.1 ≠ e.1 := fun e' he' =>
        (List.pairwise_append.mp (unique_iff.mp h)).2.2 e' he' e List.mem_cons_self
      rw [List.append_cons] at h
      rw [List.foldl_cons, insert_of_not_mem hnew, ih _ h, ← List.append_cons]
  exact hfold m [] hm

/-! ## Order -/

/-- Maps without repeated keys in which the same is found have the same entries in the
order of their keys. -/
theorem mergeSort_congr {m n : TextMap α} (hm : m.Unique) (hn : n.Unique)
    (h : ∀ e, e ∈ m ↔ e ∈ n) :
    (m.mergeSort fun a b => decide (a.1 ≤ b.1)) = n.mergeSort fun a b => decide (a.1 ≤ b.1) := by
  have hperm : m.Perm n :=
    (List.perm_ext_iff_of_nodup (nodup hm) (nodup hn)).mpr h
  -- Of two entries neither of which comes before the other the keys are equal.
  have htotal : ∀ a b : String × α, a ∈ m → b ∈ m → a.1 ≤ b.1 → b.1 ≤ a.1 → a = b := by
    intro a b ha hb hab hba
    have hkey : a.1 = b.1 := String.le_antisymm hab hba
    have hbm : (a.1, b.2) ∈ m := hkey ▸ hb
    have hvalue := ((get?_eq_some_iff hm).mpr ha).symm.trans ((get?_eq_some_iff hm).mpr hbm)
    exact Prod.ext hkey (Option.some.inj hvalue)
  have hsame := ((List.mergeSort_perm m fun a b => decide (a.1 ≤ b.1)).trans hperm).trans
    (List.mergeSort_perm n fun a b => decide (a.1 ≤ b.1)).symm
  exact hsame.eq_of_pairwise
    (fun a b ha hb hab hba => htotal a b (List.mem_mergeSort.mp ha)
      ((h b).mpr (List.mem_mergeSort.mp hb)) hab hba)
    (pairwise_sortBy (·.1) m) (pairwise_sortBy (·.1) n)

/-- In a map without repeated keys the order makes no difference to what is found. -/
theorem get?_perm {m n : TextMap α} (hm : m.Unique) (h : m.Perm n) (key : String) :
    m.get? key = n.get? key := by
  have hn : n.Unique := (h.map Prod.fst).nodup_iff.mp hm
  ext value
  rw [get?_eq_some_iff hm, get?_eq_some_iff hn, h.mem_iff]

/-- Entries under other keys at the end make no difference either. -/
theorem get?_append_other {m extra : TextMap α} {key : String}
    (h : ∀ e ∈ extra, e.1 ≠ key) : get? (m ++ extra) key = get? m key := by
  have hextra : extra.find? (fun e => decide (e.1 = key)) = none :=
    List.find?_eq_none.mpr fun e he => by simpa using h e he
  unfold get?
  rw [List.find?_append, hextra, Option.or_none]

end TextMap

end AppSynthesis
