/-
AppSynthesis.Proofs.Duration.Parts — parts that were written are read again.

* `Duration.Part.Valid` — the parts that have a spelling: their numbers are made of digits,
  of one at least.
* `Duration.number?_written`, `Duration.part?_written` — a number or a part is read off the
  text that begins with its spelling.
* `Duration.parts?_written` — parts one after the other are read off their spellings.

A spelling is read off only if what follows does not continue it. A unit follows a number and
begins with no digit; what follows a unit is the number of the next part, and the only unit
that another continues, minutes by milliseconds, is continued by no digit.
-/
import AppSynthesis.Duration.Parser

namespace AppSynthesis.Duration

/-! ## Digits -/

/-- Digits are told from what follows them when that is no digit. -/
theorem span_digits {digits rest : List Char} (hdigits : ∀ c ∈ digits, Text.isDigit c = true)
    (hrest : ∀ c ∈ rest.head?, Text.isDigit c = false) :
    (digits ++ rest).takeWhile Text.isDigit = digits ∧
      (digits ++ rest).dropWhile Text.isDigit = rest := by
  rw [List.takeWhile_append_of_pos hdigits, List.dropWhile_append_of_pos hdigits]
  rcases rest with _ | ⟨c, rest⟩
  · simp
  · have hc := hrest c rfl
    simp [hc]

/-! ## Units -/

namespace TimeUnit

theorem written_ne_nil (u : TimeUnit) : u.written ≠ [] :=
  List.ne_nil_of_length_pos u.written_length_pos

/-- No unit begins with a digit or a point. -/
theorem head_written (u : TimeUnit) {rest : List Char} {c : Char}
    (h : c ∈ (u.written ++ rest).head?) : Text.isDigit c = false ∧ c ≠ '.' := by
  cases u <;> obtain rfl := Option.some.inj h <;> decide

/-- A unit is read off its spelling, unless minutes are continued. -/
theorem read?_written (u : TimeUnit) {rest : List Char}
    (h : u = .minute → ∀ c ∈ rest.head?, c ≠ 's') :
    read? (u.written ++ rest) = some (u, rest) := by
  cases u with
  | minute =>
    rcases rest with _ | ⟨c, rest⟩
    · rfl
    · have hc : c ≠ 's' := h rfl c rfl
      simp [written, read?, hc]
  | _ => rfl

end TimeUnit

/-! ## Numbers -/

/-- A part whose number is made of digits, of one at least. -/
structure Part.Valid (p : Part) : Prop where
  whole : ∀ c ∈ p.whole, Text.isDigit c = true
  fraction : ∀ digits ∈ p.fraction, ∀ c ∈ digits, Text.isDigit c = true
  digits : p.whole ≠ [] ∨ p.fraction.getD [] ≠ []

theorem number?_written {p : Part} (hp : p.Valid) {rest : List Char}
    (hrest : ∀ c ∈ rest.head?, Text.isDigit c = false ∧ c ≠ '.') :
    number? (p.whole ++ fractionWritten p.fraction ++ rest) = some (p.whole, p.fraction, rest) := by
  obtain ⟨whole, fraction, u⟩ := p
  obtain ⟨hwhole, hfraction, hdigits⟩ := hp
  have hnodigit : ∀ c ∈ rest.head?, Text.isDigit c = false := fun c hc => (hrest c hc).1
  rcases fraction with _ | fraction
  · obtain ⟨htake, hdrop⟩ := span_digits hwhole hnodigit
    have hne : whole ≠ [] := hdigits.resolve_right fun h => h rfl
    simp only [fractionWritten, List.append_nil]
    unfold number?
    rw [htake, hdrop]
    rcases rest with _ | ⟨c, rest⟩
    · simp [hne]
    · have hc : c ≠ '.' := (hrest c rfl).2
      simp [hne, hc]
  · have hpoint : ∀ c ∈ ('.' :: (fraction ++ rest)).head?, Text.isDigit c = false := by
      rintro c ⟨⟩
      decide
    obtain ⟨htake, hdrop⟩ := span_digits hwhole hpoint
    obtain ⟨htake', hdrop'⟩ := span_digits (hfraction fraction rfl) hnodigit
    have hsome : (whole.isEmpty && fraction.isEmpty) = false := by
      rcases hdigits with h | h
      · simp [h]
      · simp [show fraction ≠ [] from h]
    simp only [fractionWritten, List.append_assoc, List.cons_append]
    unfold number?
    simp only [htake, hdrop, htake', hdrop', hsome, Bool.false_eq_true, if_false]

/-! ## Parts -/

/-- A part begins with a digit or a point. -/
theorem Part.Valid.head {p : Part} (hp : p.Valid) {rest : List Char} {c : Char}
    (h : c ∈ (p.written ++ rest).head?) : Text.isDigit c = true ∨ c = '.' := by
  obtain ⟨whole, fraction, u⟩ := p
  rcases whole with _ | ⟨d, whole⟩
  · rcases fraction with _ | fraction
    · exact absurd rfl (hp.digits.resolve_left fun h => h rfl)
    · obtain rfl : '.' = c := Option.some.inj h
      exact Or.inr rfl
  · obtain rfl : d = c := Option.some.inj h
    exact Or.inl (hp.whole _ List.mem_cons_self)

/-- No part begins with a letter. -/
theorem Part.Valid.head_ne {p : Part} (hp : p.Valid) {rest : List Char} {c : Char}
    (h : c ∈ (p.written ++ rest).head?) : c ≠ 's' := by
  rintro rfl
  exact absurd (hp.head h) (by decide)

/-- A part is read off its spelling, unless minutes are continued. -/
theorem part?_written {p : Part} (hp : p.Valid) {rest : List Char}
    (h : ∀ c ∈ rest.head?, c ≠ 's') : part? (p.written ++ rest) = some (p, rest) := by
  unfold part? Part.written
  rw [List.append_assoc, number?_written hp fun c hc => p.unit.head_written hc]
  simp only [p.unit.read?_written fun _ => h, Option.map_some]

theorem parts?_of_part? {cs rest : List Char} {p : Part} (h : part? cs = some (p, rest)) :
    parts? cs = if rest.isEmpty then some [p] else (parts? rest).map (p :: ·) := by
  rw [parts?]
  split
  · rename_i hnone
    cases hnone.symm.trans h
  · rename_i p' rest' hsome
    obtain ⟨rfl, rfl⟩ := Prod.mk.inj (Option.some.inj (hsome.symm.trans h))
    rfl

theorem parts?_of_none {cs : List Char} (h : part? cs = none) : parts? cs = none := by
  rw [parts?]
  split
  · rfl
  · rename_i hsome
    cases h.symm.trans hsome

/-- **Parts one after the other are read off their spellings.** -/
theorem parts?_written {parts : List Part} (hne : parts ≠ []) (hvalid : ∀ p ∈ parts, p.Valid) :
    parts? (parts.flatMap Part.written) = some parts := by
  induction parts with
  | nil => exact absurd rfl hne
  | cons p parts ih =>
    obtain ⟨hp, hparts⟩ := List.forall_mem_cons.mp hvalid
    rcases parts with _ | ⟨q, parts⟩
    · have hread : part? (p.written ++ []) = some (p, []) := part?_written hp (by simp)
      rw [List.flatMap_singleton, ← List.append_nil p.written, parts?_of_part? hread]
      rfl
    · have hnext : ∀ c ∈ ((q :: parts).flatMap Part.written).head?, c ≠ 's' := by
        intro c hc
        rw [List.flatMap_cons] at hc
        exact (hparts q List.mem_cons_self).head_ne hc
      have hmore : ((q :: parts).flatMap Part.written).isEmpty = false := by
        have := q.unit.written_ne_nil
        simp [Part.written, this]
      rw [List.flatMap_cons, parts?_of_part? (part?_written hp hnext), hmore,
        ih (List.cons_ne_nil q parts) hparts]
      rfl

end AppSynthesis.Duration
