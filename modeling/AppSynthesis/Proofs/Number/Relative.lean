/-
AppSynthesis.Proofs.Number.Relative — how far off results of any size are.

* `Binary64.Rounded` — a number is off from an exact result by a part in `2 ^ 53` and half a unit
  at most, or the result is beyond the format.
* `Binary64.ofRatio_rounded`, `Binary64.ofDecimal_rounded`, `Binary64.add_rounded`,
  `Binary64.mul_rounded` — so are the results of all operations on what is not negative.
* `Binary64.le_ofRatio` — rounding does not lead below a number of the format.

`AppSynthesis.Proofs.Number.Rounding` is about results whose size is known beforehand. Here
nothing is known, so a decimal may have any number of places and a result may be infinite.
-/
import AppSynthesis.Proofs.Number.Rounding

namespace AppSynthesis.Binary64

/-! ## Rounding -/

/-- A number that is rounded from so many units, which are not negative. -/
inductive Rounded (x : ℚ) : Binary64 → Prop
  | finite {units : Nat} (near : |(units : ℚ) - x| ≤ x / 2 ^ 53 + 1 / 2) :
    Rounded x (.finite false units)
  | infinite (large : (limit : ℚ) ≤ 2 * x) : Rounded x (.infinite false)

/-- The multiples of the spacing are near enough. -/
theorem spacing_le (num den : Nat) :
    (spacing (num / den) : ℚ) / 2 ≤ num / den / 2 ^ 53 + 1 / 2 := by
  have hpos : (0 : ℚ) ≤ num / den / 2 ^ 53 := by positivity
  by_cases hlarge : 52 ≤ (num / den).log2
  · have hne : num / den ≠ 0 := by
      intro hzero
      rw [hzero] at hlarge
      exact absurd hlarge (by decide)
    have hspacing : 2 ^ 52 * spacing (num / den) ≤ num / den := by
      calc 2 ^ 52 * spacing (num / den)
        _ = 2 ^ (52 + ((num / den).log2 - 52)) := (Nat.pow_add 2 52 _).symm
        _ = 2 ^ (num / den).log2 := by congr 1; omega
        _ ≤ num / den := Nat.log2_self_le hne
    have hfloor : ((num / den : Nat) : ℚ) ≤ num / den := Nat.cast_div_le
    have hspacing' : (2 ^ 52 * spacing (num / den) : ℚ) ≤ ((num / den : Nat) : ℚ) := by
      exact_mod_cast hspacing
    linarith
  · have hone : spacing (num / den) = 1 := by
      unfold spacing
      rw [Nat.sub_eq_zero_of_le (Nat.le_of_lt (Nat.lt_of_not_le hlarge))]
    rw [hone]
    push_cast
    linarith

theorem two_le_limit : (2 : ℚ) ≤ limit := by
  have h : 2 ≤ limit := by decide +kernel
  exact_mod_cast h

theorem ofRatio_rounded (num : Nat) {den : Nat} (hden : 0 < den) :
    Rounded (num / den) (ofRatio false num den) := by
  set gap := spacing (num / den) with hgap
  have hg : (0 : ℚ) < gap := by exact_mod_cast spacing_pos _
  have hd : (0 : ℚ) < den := by exact_mod_cast hden
  have hnear : |((divNearest num (den * gap) * gap : Nat) : ℚ) - num / den| ≤
      num / den / 2 ^ 53 + 1 / 2 := by
    have herror := divNearest_error num (Nat.mul_pos hden (spacing_pos (num / den)))
    have hscale : (num / ((den * gap : Nat) : ℚ)) * gap = num / den := by
      push_cast
      field_simp
    calc |((divNearest num (den * gap) * gap : Nat) : ℚ) - num / den|
      _ = |(divNearest num (den * gap) : ℚ) - num / ((den * gap : Nat) : ℚ)| * gap := by
        rw [← hscale, ← abs_of_pos hg, ← abs_mul, abs_of_pos hg, sub_mul]
        push_cast
        rfl
      _ ≤ 1 / 2 * gap := mul_le_mul_of_nonneg_right herror hg.le
      _ ≤ num / den / 2 ^ 53 + 1 / 2 := by linarith [spacing_le num den]
  unfold ofRatio
  dsimp only
  rw [← hgap]
  split
  · rename_i hlimit
    have hlimit' : (limit : ℚ) ≤ ((divNearest num (den * gap) * gap : Nat) : ℚ) := by
      exact_mod_cast hlimit
    have hhigh := (abs_le.mp hnear).2
    exact .infinite (by linarith [two_le_limit])
  · exact .finite hnear

/-- **Rounding does not lead below a number of the format.** -/
theorem le_ofRatio {num den r units : Nat} {negative sign : Bool} (hr : Significant r)
    (hle : r ≤ num / den) (h : ofRatio negative num den = .finite sign units) : r ≤ units := by
  set gap := spacing (num / den) with hgap
  have hunits : units = divNearest num (den * gap) * gap := by
    unfold ofRatio at h
    dsimp only at h
    split at h <;> cases h
    rfl
  have hfloor : num / den / gap ≤ divNearest num (den * gap) := by
    rw [Nat.div_div_eq_div_mul]
    unfold divNearest
    split <;> omega
  have hmultiple {k : Nat} (hk : k * gap ≤ num / den) : k * gap ≤ units := by
    have hkfloor : k ≤ num / den / gap := (Nat.le_div_iff_mul_le (spacing_pos _)).mpr hk
    exact hunits ▸ Nat.mul_le_mul_right gap (hkfloor.trans hfloor)
  rcases hr.dvd_or_le (n := num / den) with ⟨k, rfl⟩ | ⟨k, hrk, hk⟩
  · rw [Nat.mul_comm] at hle ⊢
    exact hmultiple hle
  · exact hrk.trans (hmultiple hk)

/-! ## Operations -/

/-- So few digits behind so many places are half a unit at most. -/
theorem le_half_of_log2_lt {digits e : Nat} (h : digits.log2 + 1100 < 3 * e) :
    (digits / 10 ^ (e + 1) * one : ℚ) ≤ 1 / 2 := by
  have hone : one = 2 ^ 1074 := by decide +kernel
  have hpower : 2 * (digits * one) ≤ 10 ^ (e + 1) := by
    calc 2 * (digits * one)
      _ ≤ 2 * (2 ^ (digits.log2 + 1) * 2 ^ 1074) := by
        rw [hone]
        exact Nat.mul_le_mul_left _ (Nat.mul_le_mul_right _ Nat.lt_log2_self.le)
      _ = 2 ^ (1 + (digits.log2 + 1 + 1074)) := by
        rw [Nat.pow_add 2 1, Nat.pow_add 2 (digits.log2 + 1), Nat.pow_one]
      _ ≤ 2 ^ (3 * (e + 1)) := Nat.pow_le_pow_right (by decide) (by omega)
      _ = 8 ^ (e + 1) := Nat.pow_mul 2 3 (e + 1)
      _ ≤ 10 ^ (e + 1) := Nat.pow_le_pow_left (by decide) _
  have hpower' : (2 * (digits * one) : ℚ) ≤ 10 ^ (e + 1) := by exact_mod_cast hpower
  rw [div_mul_eq_mul_div, div_le_iff₀ (by positivity)]
  linarith

/-- A decimal with any number of places is read with this precision. -/
theorem ofDecimal_rounded (digits places : Nat) :
    Rounded (digits / 10 ^ places * one) (ofDecimal false digits (-(places : Int))) := by
  unfold ofDecimal
  by_cases hzero : digits = 0
  · rw [if_pos hzero, hzero, Nat.cast_zero, zero_div, zero_mul]
    exact .finite (by rw [Nat.cast_zero, sub_self, abs_zero]; norm_num)
  · rw [if_neg hzero]
    rcases places with _ | e
    · have hrounded := ofRatio_rounded (digits * Nat.pow 10 0 * one) Nat.one_pos
      have hratio : ((digits * Nat.pow 10 0 * one : Nat) : ℚ) / (1 : Nat) =
          digits / 10 ^ 0 * one := by
        rw [Nat.pow_eq]
        push_cast
        ring
      rw [hratio] at hrounded
      have hexponent : -((0 : Nat) : Int) = Int.ofNat 0 := rfl
      have hrange : ¬400 < 0 := by decide
      simpa only [hexponent, if_neg hrange] using hrounded
    · simp only [Int.neg_ofNat_succ]
      split
      · rename_i hsmall
        have htiny := le_half_of_log2_lt hsmall
        have hpos : (0 : ℚ) ≤ digits / 10 ^ (e + 1) * one :=
          mul_nonneg (by positivity) cast_one_pos.le
        refine .finite ?_
        rw [Nat.cast_zero, zero_sub, abs_neg, abs_of_nonneg hpos]
        linarith
      · have hden : 0 < Nat.pow 10 (e + 1) := Nat.pow_pos (by decide)
        have hrounded := ofRatio_rounded (digits * one) hden
        have hratio : ((digits * one : Nat) : ℚ) / (Nat.pow 10 (e + 1) : Nat) =
            digits / 10 ^ (e + 1) * one := by
          rw [Nat.pow_eq]
          push_cast
          ring
        rwa [hratio] at hrounded

/-- A product of what is finite and not negative. -/
theorem mul_rounded (a b : Nat) :
    Rounded (a * b / one) ((finite false a).mul (.finite false b)) := by
  have hrounded := ofRatio_rounded (a * b) one_pos
  rwa [Nat.cast_mul] at hrounded

/-- A sum of what is finite and not negative. -/
theorem add_finite (a b : Nat) :
    (finite false a).add (.finite false b) = ofRatio false (a + b) 1 := by
  have hsum : ¬((a : Int) + b < 0) := by omega
  have habs : ((a : Int) + b).natAbs = a + b := by omega
  simp [add, signedUnits, hsum, habs]

theorem add_rounded (a b : Nat) :
    Rounded (a + b) ((finite false a).add (.finite false b)) := by
  have hrounded := ofRatio_rounded (a + b) Nat.one_pos
  rw [Nat.cast_add, Nat.cast_one, div_one] at hrounded
  rwa [add_finite]

end AppSynthesis.Binary64
