/-
AppSynthesis.Proofs.Value.Path — places in a document.

* `Value.Path` — the keys and indices on the way to a place; `Value.at?`, the value there, and
  `Value.at?_cons`, it is found step by step.
* `Value.isJson` — the maps in a value have text keys, none of them twice, and there are no
  timestamps in it.
* `Value.isJson_at` — then so it is in every part of the value.
* `Entries.get?_of_mem` — in such a map the value of an entry is found under its key.
* `Value.without` — a map without one of its keys; `Value.at?_without`, what is at its places.
-/
import AppSynthesis.Proofs.Value.Entries

namespace AppSynthesis

namespace Value

/-! ## Places -/

/-- A step into a map or into a list. -/
inductive Step where
  | key (name : String)
  | item (index : Nat)
  deriving DecidableEq, Repr

/-- The way to a place, from the outside. -/
abbrev Path := List Step

/-- The value at a place, if there is one. -/
def at? : Path → Value → Option Value
  | [], v => some v
  | .key name :: rest, .map _ entries => (Entries.get? entries name).bind (at? rest)
  | .item index :: rest, .list _ items => items[index]?.bind (at? rest)
  | _ :: _, _ => none

/-- There is nothing inside null. -/
theorem path_eq_nil_of_null {p : Path} {u : Value} (h : Value.null.at? p = some u) : p = [] := by
  rcases p with _ | ⟨_ | _, rest⟩
  · rfl
  · cases h
  · cases h

theorem at?_key {name : String} {rest : Path} {v u : Value}
    (h : v.at? (.key name :: rest) = some u) :
    ∃ origin entries w, v = .map origin entries ∧ Entries.get? entries name = some w ∧
      w.at? rest = some u := by
  cases v with
  | map origin entries =>
    obtain ⟨w, hget, hw⟩ := Option.bind_eq_some_iff.mp h
    exact ⟨origin, entries, w, rfl, hget, hw⟩
  | _ => cases h

theorem at?_item {index : Nat} {rest : Path} {v u : Value}
    (h : v.at? (.item index :: rest) = some u) :
    ∃ origin items w, v = .list origin items ∧ items[index]? = some w ∧ w.at? rest = some u := by
  cases v with
  | list origin items =>
    obtain ⟨w, hget, hw⟩ := Option.bind_eq_some_iff.mp h
    exact ⟨origin, items, w, rfl, hget, hw⟩
  | _ => cases h

/-- What has something inside counts as given. -/
theorem isTrue_of_at? {v w : Value} {step : Step} {rest : Path}
    (h : v.at? (step :: rest) = some w) : v.isTrue = true := by
  cases step with
  | key name =>
    obtain ⟨origin, entries, _, rfl, hget, -⟩ := at?_key h
    cases entries with
    | nil => cases hget
    | cons e rest => rfl
  | item index =>
    obtain ⟨origin, items, _, rfl, hget, -⟩ := at?_item h
    cases items with
    | nil => cases hget
    | cons x rest => rfl

theorem at?_cons (v : Value) (step : Step) (rest : Path) :
    v.at? (step :: rest) = (v.at? [step]).bind (at? rest) := by
  cases v with
  | list origin items =>
    cases step with
    | key name => rfl
    | item index =>
      simp only [at?]
      cases items[index]? <;> rfl
  | map origin entries =>
    cases step with
    | key name =>
      simp only [at?]
      cases Entries.get? entries name <;> rfl
    | item index => rfl
  | _ => cases step <;> rfl

theorem at?_cons_eq_some {v w : Value} {step : Step} {rest : Path} :
    v.at? (step :: rest) = some w ↔ ∃ u, v.at? [step] = some u ∧ u.at? rest = some w := by
  rw [at?_cons, Option.bind_eq_some_iff]

theorem at?_of_at? {v u : Value} {step : Step} (h : v.at? [step] = some u) (rest : Path) :
    v.at? (step :: rest) = u.at? rest := by
  rw [at?_cons, h, Option.bind_some]

/-! ## Values with text keys -/

mutual

/-- Whether the maps in a value have text keys, none of them twice, and there are no
timestamps in it. -/
def isJson : Value → Bool
  | .stamp _ _ => false
  | .list _ items => itemsJson items
  | .map _ entries => entriesJson entries
  | _ => true

/-- The same for the items of a list. -/
def itemsJson : List Value → Bool
  | [] => true
  | v :: rest => isJson v && itemsJson rest

/-- The same for the entries of a map. -/
def entriesJson : Entries → Bool
  | [] => true
  | (k, v) :: rest =>
    k.isText && (rest.all fun e => e.1 != k) && isJson v && entriesJson rest

end

theorem itemsJson_iff {items : List Value} :
    itemsJson items = true ↔ ∀ v ∈ items, v.isJson = true := by
  induction items with
  | nil => simp [itemsJson]
  | cons v rest ih => simp [itemsJson, ih]

theorem entriesJson_iff {entries : Entries} :
    entriesJson entries = true ↔ (entries.map (·.1)).Nodup ∧
      ∀ e ∈ entries, e.1.isText = true ∧ e.2.isJson = true := by
  induction entries with
  | nil => simp [entriesJson]
  | cons e rest ih =>
    obtain ⟨k, v⟩ := e
    simp only [entriesJson, Bool.and_eq_true, List.all_eq_true, bne_iff_ne, ih, List.map_cons,
      List.nodup_cons, List.mem_map, List.forall_mem_cons]
    constructor
    · rintro ⟨⟨⟨hk, hnew⟩, hv⟩, hrest, hall⟩
      exact ⟨⟨fun ⟨e, he, heq⟩ => hnew e he heq, hrest⟩, ⟨hk, hv⟩, hall⟩
    · rintro ⟨⟨hnew, hrest⟩, ⟨hk, hv⟩, hall⟩
      exact ⟨⟨⟨hk, fun e he heq => hnew ⟨e, he, heq⟩⟩, hv⟩, hrest, hall⟩

/-- **What a value has of text keys, every part of it has.** -/
theorem isJson_at : ∀ {p : Path} {v u : Value}, v.isJson = true → v.at? p = some u →
    u.isJson = true
  | [], _, _, hv, h => Option.some.inj h ▸ hv
  | .key _ :: _, _, _, hv, h => by
    obtain ⟨_, _, _, rfl, hget, h⟩ := at?_key h
    exact isJson_at ((entriesJson_iff.mp hv).2 _ (Entries.mem_of_get? hget)).2 h
  | .item _ :: _, _, _, hv, h => by
    obtain ⟨_, _, _, rfl, hget, h⟩ := at?_item h
    exact isJson_at (itemsJson_iff.mp hv _ (List.mem_of_getElem? hget)) h

end Value

namespace Entries

/-- The value of an entry is found under its key, if no key is there twice. -/
theorem get?_of_mem {entries : Entries} (h : (entries.map (·.1)).Nodup) {key : String} {v : Value}
    (hmem : (.str key, v) ∈ entries) : get? entries key = some v := by
  induction entries with
  | nil => cases hmem
  | cons e rest ih =>
    obtain ⟨hnew, hrest⟩ := List.nodup_cons.mp h
    unfold get? at ih ⊢
    rcases List.mem_cons.mp hmem with rfl | hmem
    · rw [List.find?_cons_of_pos (by simp), Option.map_some]
    · rw [List.find?_cons_of_neg, ih hrest hmem]
      intro heq
      have hkey : e.1 = .str key := of_decide_eq_true heq
      exact hnew (List.mem_map.mpr ⟨_, hmem, hkey.symm⟩)

end Entries

/-! ## A key left out -/

namespace Value

/-- A map without what it has under a key. -/
def without (key : String) : Value → Value
  | .map origin entries => .map origin (entries.filter fun e => e.1 ≠ .str key)
  | v => v

theorem isJson_without (key : String) {v : Value} (h : v.isJson = true) :
    (v.without key).isJson = true := by
  cases v <;> try exact h
  obtain ⟨hkeys, hall⟩ := entriesJson_iff.mp h
  exact entriesJson_iff.mpr ⟨hkeys.sublist (List.filter_sublist.map _),
    fun e he => hall e (List.mem_filter.mp he).1⟩

/-- Nothing is at the places inside of what was left out, and the same at all others. -/
theorem at?_without (key : String) (step : Step) (rest : Path) (v : Value) :
    (v.without key).at? (step :: rest) =
      if step = .key key then none else v.at? (step :: rest) := by
  cases v with
  | map origin entries =>
    cases step with
    | key other =>
      unfold without at?
      rw [Entries.get?_filter_ne]
      by_cases h : other = key <;> simp [h]
    | item i => rfl
  | _ => cases step <;> simp [without, at?]

end Value

end AppSynthesis
