/-
AppSynthesis.Proofs.Value.Entries — reading and writing text keys in a map.

* `Entries.get?_cons_self`, `Entries.get?_cons_of_ne` — what is found in front of others;
  `Entries.mem_of_get?`, it stands there.
* `Entries.insert_insert` — the later of two writes under one key counts.
* `Entries.insert_rewrite` — writing a key again that is there already commutes
  with the writes in between: it keeps its place.
* `Entries.get?_insert_other`, `Entries.filter_insert` — what stands under other
  keys is kept, in its order.

An entry under a text key is told apart by equality (`Value.agrees_str`), so these
hold of any entries, with keys of any kind and in any number.
-/
import AppSynthesis.Proofs.Value.Identity

namespace AppSynthesis.Entries

theorem get?_cons_self (key : String) (value : Value) (rest : Entries) :
    get? ((.str key, value) :: rest) key = some value := by
  unfold get?
  rw [List.find?_cons_of_pos (by simp), Option.map_some]

theorem get?_cons_of_ne {key other : String} (h : key ≠ other) (value : Value) (rest : Entries) :
    get? ((.str key, value) :: rest) other = get? rest other := by
  unfold get?
  rw [List.find?_cons_of_neg (by simpa using h)]

/-- What is found under a key stands there. -/
theorem mem_of_get? {entries : Entries} {key : String} {v : Value}
    (h : get? entries key = some v) : (.str key, v) ∈ entries := by
  obtain ⟨e, he, rfl⟩ := Option.map_eq_some_iff.mp h
  have hkey : e.1 = .str key := by simpa using List.find?_some he
  exact hkey ▸ List.mem_of_find?_eq_some he

theorem get?_of_getD {entries : Entries} {key : String} (h : getD entries key ≠ .null) :
    get? entries key = some (getD entries key) := by
  unfold getD at h ⊢
  rcases hget : get? entries key with _ | v
  · rw [hget] at h
    exact absurd rfl h
  · rfl

theorem mem_of_getD {entries : Entries} {key : String} (h : getD entries key ≠ .null) :
    (.str key, getD entries key) ∈ entries := mem_of_get? (get?_of_getD h)

theorem insert_cons (k v : Value) (rest : Entries) (key : String) (value : Value) :
    insert ((k, v) :: rest) (.str key) value =
      if k = .str key then (k, value) :: rest else (k, v) :: insert rest (.str key) value := by
  rw [insert]
  by_cases h : k = .str key
  · rw [if_pos h, if_pos (Value.agrees_str.mpr h)]
  · rw [if_neg h, if_neg fun hs => h (Value.agrees_str.mp hs)]

/-- What is there after a write was written, or was there before. -/
theorem mem_insert {key : String} {value : Value} {e : Value × Value} :
    ∀ {entries : Entries}, e ∈ insert entries (.str key) value →
      e = (.str key, value) ∨ e ∈ entries
  | [], h => Or.inl (List.mem_singleton.mp h)
  | (k, v) :: rest, h => by
    rw [insert_cons] at h
    split at h
    · rename_i hk
      rcases List.mem_cons.mp h with rfl | h
      · exact Or.inl (hk ▸ rfl)
      · exact Or.inr (List.mem_cons_of_mem _ h)
    · rcases List.mem_cons.mp h with rfl | h
      · exact Or.inr List.mem_cons_self
      · exact (mem_insert h).imp id (List.mem_cons_of_mem _)

/-- The later of two writes under one key counts. -/
theorem insert_insert (key : String) (v w : Value) (entries : Entries) :
    insert (insert entries (.str key) v) (.str key) w = insert entries (.str key) w := by
  induction entries with
  | nil => simp [insert]
  | cons e rest ih =>
    obtain ⟨k, u⟩ := e
    by_cases h : k = .str key
    · simp only [insert_cons, if_pos h]
    · simp only [insert_cons, if_neg h, ih]

/-- A key that is written again keeps its place. -/
theorem insert_rewrite {a b : String} (hab : a ≠ b) (u v w : Value) (entries : Entries) :
    insert (insert (insert entries (.str a) u) (.str b) v) (.str a) w =
      insert (insert entries (.str a) w) (.str b) v := by
  induction entries with
  | nil => simp [insert, hab]
  | cons e rest ih =>
    obtain ⟨k, x⟩ := e
    by_cases ha : k = .str a
    · have hb : k ≠ .str b := fun hb => hab (Value.str.inj (ha.symm.trans hb))
      simp only [insert_cons, if_pos ha, if_neg hb]
    · by_cases hb : k = .str b
      · simp only [insert_cons, if_neg ha, if_pos hb, insert_insert]
      · simp only [insert_cons, if_neg ha, if_neg hb, ih]

/-- What stands under another key is kept. -/
theorem get?_insert_other {key other : String} (h : other ≠ key) (value : Value)
    (entries : Entries) :
    get? (insert entries (.str key) value) other = get? entries other := by
  induction entries with
  | nil => simp [get?, insert, h.symm]
  | cons e rest ih =>
    obtain ⟨k, v⟩ := e
    unfold get? at ih ⊢
    rw [insert_cons]
    by_cases hk : k = .str key
    · have ho : k ≠ .str other := fun ho => h (Value.str.inj (ho.symm.trans hk))
      rw [if_pos hk, List.find?_cons_of_neg (by simpa using ho),
        List.find?_cons_of_neg (by simpa using ho)]
    · rw [if_neg hk, List.find?_cons, List.find?_cons]
      split
      · rfl
      · exact ih

/-- What is found in a map without a key. -/
theorem get?_filter_ne (entries : Entries) (key other : String) :
    get? (entries.filter fun e => e.1 ≠ .str key) other =
      if other = key then none else get? entries other := by
  unfold get?
  rw [List.find?_filter]
  split
  · rename_i heq
    subst heq
    rw [List.find?_eq_none.mpr (by simp), Option.map_none]
  · rename_i hne
    congr 2
    funext e
    rw [Bool.eq_iff_iff]
    simp only [ne_eq, decide_eq_true_eq, and_iff_right_iff_imp]
    exact fun heq hkey => hne (Value.str.inj (heq.symm.trans hkey))

/-- A selection of keys that leaves out the written one takes the same entries
as before, in the same order. -/
theorem filter_insert {key : String} (value : Value) {f : Value → Bool} (hf : f (.str key) = false)
    (entries : Entries) :
    (insert entries (.str key) value).filter (fun e => f e.1) = entries.filter fun e => f e.1 := by
  induction entries with
  | nil => simp [insert, hf]
  | cons e rest ih =>
    obtain ⟨k, v⟩ := e
    rw [insert_cons]
    by_cases hk : k = .str key
    · rw [if_pos hk, List.filter_cons_of_neg (by simp [hk, hf]),
        List.filter_cons_of_neg (by simp [hk, hf])]
    · rw [if_neg hk, List.filter_cons, List.filter_cons, ih]

end AppSynthesis.Entries
