/-
AppSynthesis.Proofs.Text.Digit — numerals and the numbers they denote.

* `Text.isDigit_of_mem_toDigits`, `Text.naturalOf_toDigits` — the numeral of a number is
  made of digits, and denotes the number.
* `Text.naturalOf_append` — numerals one after the other.
* `Text.naturalOf_zeros` — zeros denote nothing.
-/
import Mathlib.Tactic.Ring
import AppSynthesis.Text.Digit

namespace AppSynthesis.Text

theorem digit?_of_isDigit {c : Char} (h : c.isDigit = true) :
    digit? c = some (c.toNat - '0'.toNat) := by
  have hrange : 48 ≤ c.toNat ∧ c.toNat ≤ 57 := by
    simpa [Char.isDigit, UInt32.le_iff_toNat_le] using h
  unfold digit? digitZeros
  rw [List.find?_cons_of_pos (by simp; omega)]
  rfl

theorem isDigit_of_mem_toDigits {n : Nat} {c : Char} (h : c ∈ Nat.toDigits 10 n) :
    isDigit c = true := by
  unfold isDigit
  rw [digit?_of_isDigit (Nat.isDigit_of_mem_toDigits (by decide) (Nat.le_refl 10) h)]
  rfl

/-- What digits denote after others is told by their number. -/
theorem foldl_digits (ys : List Char) (start : Nat) :
    ys.foldl (fun n c => n * 10 + (digit? c).getD 0) start =
      start * 10 ^ ys.length + naturalOf ys := by
  unfold naturalOf
  induction ys generalizing start with
  | nil => simp
  | cons c ys ih =>
    rw [List.foldl_cons, List.foldl_cons, ih, ih (0 * 10 + _), List.length_cons, Nat.pow_succ]
    ring

theorem naturalOf_append (xs ys : List Char) :
    naturalOf (xs ++ ys) = naturalOf xs * 10 ^ ys.length + naturalOf ys := by
  rw [← foldl_digits]
  exact List.foldl_append

/-- The numeral of a number denotes the number. -/
theorem naturalOf_toDigits (n : Nat) : naturalOf (Nat.toDigits 10 n) = n := by
  have hfold : ∀ (cs : List Char) (start : Nat), (∀ c ∈ cs, c.isDigit = true) →
      cs.foldl (fun n c => n * 10 + (digit? c).getD 0) start = Nat.ofDigitChars 10 cs start := by
    intro cs
    induction cs with
    | nil => exact fun _ _ => rfl
    | cons c cs ih =>
      intro start h
      obtain ⟨hc, hcs⟩ := List.forall_mem_cons.mp h
      rw [List.foldl_cons, ih _ hcs, digit?_of_isDigit hc, Nat.mul_comm]
      rfl
  rw [naturalOf, hfold _ _ fun c hc =>
    Nat.isDigit_of_mem_toDigits (by decide) (Nat.le_refl 10) hc]
  exact Nat.ofDigitChars_toDigits (by decide) (Nat.le_refl 10)

theorem naturalOf_zeros (k : Nat) : naturalOf (List.replicate k '0') = 0 := by
  induction k with
  | zero => rfl
  | succ k ih =>
    have hzero : naturalOf ['0'] = 0 := rfl
    rw [List.replicate_succ, ← List.singleton_append, naturalOf_append, ih, hzero, Nat.zero_mul]

end AppSynthesis.Text
