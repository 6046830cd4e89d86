/-
AppSynthesis.Proofs.Number.Rounding — how far the numbers of the binary format are from
exact results.

* `Binary64.Significant` — the natural numbers with at most 53 significant binary digits,
  which are those that the format holds.
* `Binary64.Nearest` — a count of units that is as near to an exact result as any count
  that the format holds.
* `Binary64.ofRatio_nearest` — rounding gives the nearest count of units.
* `Binary64.Nearest.eq_of_significant` — so a result that the format holds is exact, and
  `Binary64.Nearest.error_le`, other results are off by less than a part in `2 ^ 53`.
* `Binary64.nearestInt?_of_near` — what is off by less than a half is found again when it
  is rounded to an integer.

Exact results are rational numbers of units. The nearest count is found among the
multiples of the spacing at the exact result; what has to be shown is that no number of the
format lies nearer between these, where the format is finer. It is finer only below the last
power of two, and that power is itself a multiple of the spacing.
-/
import Mathlib.Tactic.Linarith
import Mathlib.Tactic.FieldSimp
import Mathlib.Tactic.Ring
import Mathlib.Tactic.Positivity
import Mathlib.Data.Nat.Cast.Order.Field
import Mathlib.Data.Rat.Floor
import Mathlib.Data.Rat.Cast.Order
import AppSynthesis.Proofs.Value.Identity

namespace AppSynthesis.Binary64

/-! ## Rounding to a whole number -/

/-- The whole number nearest to a ratio is off by a half at most. -/
theorem divNearest_error (num : Nat) {den : Nat} (hden : 0 < den) :
    |(divNearest num den : ℚ) - num / den| ≤ 1 / 2 := by
  have hd : (0 : ℚ) < den := by exact_mod_cast hden
  have hsplit := Nat.div_add_mod num den
  have hmod := Nat.mod_lt num hden
  have hbounds : 2 * num ≤ 2 * (den * divNearest num den) + den ∧
      2 * (den * divNearest num den) ≤ 2 * num + den := by
    unfold divNearest
    split
    · rename_i hup
      rw [Nat.mul_add]
      omega
    · omega
  have hlow : (2 * num : ℚ) ≤ 2 * (den * divNearest num den) + den := by
    exact_mod_cast hbounds.1
  have hhigh : (2 * (den * divNearest num den) : ℚ) ≤ 2 * num + den := by
    exact_mod_cast hbounds.2
  have hratio : (num / den : ℚ) * den = num := div_mul_cancel₀ _ (ne_of_gt hd)
  rw [abs_le]
  constructor
  · nlinarith
  · nlinarith

/-- No whole number is nearer than the nearest one. -/
theorem divNearest_le (num : Nat) {den : Nat} (hden : 0 < den) (k : Nat) :
    |(divNearest num den : ℚ) - num / den| ≤ |(k : ℚ) - num / den| := by
  by_cases h : divNearest num den = k
  · rw [h]
  · have hapart : (1 : ℚ) ≤ |(divNearest num den : ℚ) - k| := by
      have hne : (divNearest num den : Int) - k ≠ 0 := by omega
      exact_mod_cast Int.one_le_abs hne
    have htriangle := abs_sub_le (divNearest num den : ℚ) (num / den) k
    have herror := divNearest_error num hden
    rw [abs_sub_comm (num / den : ℚ)] at htriangle
    linarith

theorem divNearest_le_succ (num den : Nat) : divNearest num den ≤ num / den + 1 := by
  unfold divNearest
  split <;> omega

/-- What is off by less than a half is rounded to the whole number that it is off from. -/
theorem divNearest_eq {num den n : Nat} (hden : 0 < den) (h : |(num / den : ℚ) - n| < 1 / 2) :
    divNearest num den = n := by
  have herror := divNearest_error num hden
  have hclose : |(divNearest num den : ℚ) - n| < 1 :=
    calc |(divNearest num den : ℚ) - n|
      _ ≤ |(divNearest num den : ℚ) - num / den| + |(num / den : ℚ) - n| := abs_sub_le _ _ _
      _ < 1 := by linarith
  have hint : |(divNearest num den : Int) - n| < 1 := by exact_mod_cast hclose
  have := Int.abs_lt_one_iff.mp hint
  omega

/-! ## The numbers of the format -/

/-- A natural number with at most 53 significant binary digits. -/
def Significant (n : Nat) : Prop := ∃ m e, n = m * 2 ^ e ∧ m < 2 ^ 53

theorem significant_of_le {n : Nat} (h : n ≤ 2 ^ 53) : Significant n := by
  rcases Nat.lt_or_eq_of_le h with hlt | rfl
  · exact ⟨n, 0, by simp, hlt⟩
  · exact ⟨1, 53, by simp, by norm_num⟩

/-- A multiple of a power of two that is not too large beside it. -/
theorem significant_of_dvd {n k : Nat} (hdvd : 2 ^ k ∣ n) (h : n ≤ 2 ^ (k + 53)) :
    Significant n := by
  obtain ⟨m, rfl⟩ := hdvd
  rw [Nat.pow_add, Nat.mul_le_mul_left_iff (Nat.two_pow_pos k)] at h
  obtain ⟨q, e, rfl, hq⟩ := significant_of_le h
  exact ⟨q, e + k, by rw [Nat.pow_add]; ring, hq⟩

theorem Significant.mul_pow {n : Nat} (h : Significant n) (k : Nat) : Significant (n * 2 ^ k) := by
  obtain ⟨m, e, rfl, hm⟩ := h
  exact ⟨m, e + k, by rw [Nat.pow_add, Nat.mul_assoc], hm⟩

theorem cast_one_pos : (0 : ℚ) < one := by exact_mod_cast one_pos

theorem exists_one_eq : ∃ k, one = 2 ^ k := ⟨1074, by decide +kernel⟩

theorem le_limit : 2 ^ 128 * one ≤ limit := by decide +kernel

/-- The units of a whole number with at most 53 digits have no more. -/
theorem Significant.units {n : Nat} (h : Significant n) : Significant (n * one) := by
  obtain ⟨k, hk⟩ := exists_one_eq
  exact hk ▸ h.mul_pow k

/-! ## The nearest number of the format -/

/-- A count of units that the format holds, and than which no count that it holds is nearer
to `x`. -/
structure Nearest (x : ℚ) (units : Nat) : Prop where
  significant : Significant units
  le : ∀ r, Significant r → |(units : ℚ) - x| ≤ |(r : ℚ) - x|

theorem spacing_pos (units : Nat) : 0 < spacing units := Nat.two_pow_pos _

/-- Below the last power of two the format is finer than the spacing; a number of the
format that is no multiple of the spacing lies there. -/
theorem Significant.dvd_or_le {r n : Nat} (hr : Significant r) :
    spacing n ∣ r ∨ ∃ k, r ≤ k * spacing n ∧ k * spacing n ≤ n := by
  obtain ⟨m, e, rfl, hm⟩ := hr
  unfold spacing
  by_cases he : n.log2 - 52 ≤ e
  · exact Or.inl (Dvd.dvd.mul_left (pow_dvd_pow 2 he) m)
  · have hn : n ≠ 0 := by
      rintro rfl
      simp at he
    refine Or.inr ⟨2 ^ 52, ?_, ?_⟩
    · calc m * 2 ^ e
        _ ≤ 2 ^ 53 * 2 ^ e := Nat.mul_le_mul_right _ hm.le
        _ = 2 ^ (53 + e) := (Nat.pow_add 2 53 e).symm
        _ ≤ 2 ^ (52 + (n.log2 - 52)) := Nat.pow_le_pow_right (by decide) (by omega)
        _ = 2 ^ 52 * Nat.pow 2 (n.log2 - 52) := Nat.pow_add 2 52 _
    · calc 2 ^ 52 * 2 ^ (n.log2 - 52)
        _ = 2 ^ (52 + (n.log2 - 52)) := (Nat.pow_add 2 52 _).symm
        _ = 2 ^ n.log2 := by congr 1; omega
        _ ≤ n := Nat.log2_self_le hn

/-- A number of multiples of the spacing at `n` that is rounded from a ratio about `n`. -/
theorem significant_mul_spacing {q n : Nat} (h : q * spacing n ≤ n + spacing n) :
    Significant (q * spacing n) := by
  have hn : n < 2 ^ (n.log2 + 1) := Nat.lt_log2_self
  by_cases hlarge : 52 ≤ n.log2
  · refine significant_of_dvd (k := n.log2 - 52) (Dvd.intro_left q rfl) ?_
    have hsplit : 2 ^ (n.log2 - 52 + 53) = 2 ^ 53 * 2 ^ (n.log2 - 52) := by
      rw [Nat.pow_add, Nat.mul_comm]
    have hlog : n.log2 + 1 = n.log2 - 52 + 53 := by omega
    rw [hlog, hsplit] at hn
    rw [hsplit]
    refine Nat.mul_le_mul_right _ (Nat.lt_succ_iff.mp ?_)
    refine Nat.lt_of_mul_lt_mul_right (a := spacing n) ?_
    calc q * spacing n
      _ ≤ n + spacing n := h
      _ < 2 ^ 53 * spacing n + spacing n := Nat.add_lt_add_right hn _
      _ = (2 ^ 53 + 1) * spacing n := by ring
  · have hspacing : spacing n = 1 := by
      unfold spacing
      rw [Nat.sub_eq_zero_of_le (Nat.le_of_lt (Nat.lt_of_not_le hlarge))]
    have hbound : 2 ^ (n.log2 + 1) ≤ 2 ^ 52 := Nat.pow_le_pow_right (by decide) (by omega)
    rw [hspacing] at h ⊢
    exact significant_of_le (by omega)

/-- The multiple of the spacing that a ratio is rounded to. -/
theorem significant_rounded (num den : Nat) :
    Significant (divNearest num (den * spacing (num / den)) * spacing (num / den)) := by
  apply significant_mul_spacing
  set gap := spacing (num / den)
  calc divNearest num (den * gap) * gap
    _ ≤ (num / (den * gap) + 1) * gap := Nat.mul_le_mul_right _ (divNearest_le_succ _ _)
    _ = num / den / gap * gap + gap := by rw [Nat.div_div_eq_div_mul, Nat.succ_mul]
    _ ≤ num / den + gap := Nat.add_le_add_right (Nat.div_mul_le_self _ _) _

/-- Whatever was rounded, the format holds the result. -/
theorem significant_of_ofRatio {negative sign : Bool} {num den units : Nat}
    (h : ofRatio negative num den = .finite sign units) : Significant units := by
  unfold ofRatio at h
  dsimp only at h
  split at h
  · cases h
  · cases h
    exact significant_rounded num den

/-- **Rounding gives the nearest number of the format**, unless that is too large. -/
theorem ofRatio_nearest (num : Nat) {den : Nat} (hden : 0 < den) (negative : Bool)
    (hsmall : (num / den : ℚ) < 2 ^ 127 * one) :
    ∃ units, ofRatio negative num den = .finite negative units ∧ Nearest (num / den) units := by
  have hd : (0 : ℚ) < den := by exact_mod_cast hden
  set gap := spacing (num / den) with hgap
  have hgapPos : 0 < gap := spacing_pos _
  have hg : (0 : ℚ) < gap := by exact_mod_cast hgapPos
  have hcell : 0 < den * gap := Nat.mul_pos hden hgapPos
  set q := divNearest num (den * gap) with hq
  -- Among the multiples of the spacing the nearest is chosen.
  have hnear : ∀ k : Nat,
      |((q * gap : Nat) : ℚ) - num / den| ≤ |((k * gap : Nat) : ℚ) - num / den| := by
    have hscale : (num / ((den * gap : Nat) : ℚ)) * gap = num / den := by
      push_cast
      field_simp
    have hexpand : ∀ j : Nat, |(j : ℚ) - num / ((den * gap : Nat) : ℚ)| * gap =
        |((j * gap : Nat) : ℚ) - num / den| := by
      intro j
      rw [← hscale, ← abs_of_pos hg, ← abs_mul, abs_of_pos hg, sub_mul]
      push_cast
      rfl
    intro k
    have hle := mul_le_mul_of_nonneg_right (divNearest_le num hcell k) hg.le
    rwa [hexpand, hexpand] at hle
  have hnearest : Nearest (num / den) (q * gap) := by
    refine ⟨significant_rounded num den, fun r hr => ?_⟩
    rcases hr.dvd_or_le (n := num / den) with ⟨k, rfl⟩ | ⟨k, hrk, hk⟩
    · rw [Nat.mul_comm (spacing _)]
      exact hnear k
    · have hfloor : ((num / den : Nat) : ℚ) ≤ num / den := Nat.cast_div_le
      have hrk' : (r : ℚ) ≤ ((k * gap : Nat) : ℚ) := by exact_mod_cast hrk
      have hk' : ((k * gap : Nat) : ℚ) ≤ num / den := le_trans (by exact_mod_cast hk) hfloor
      refine (hnear k).trans ?_
      rw [abs_of_nonpos (by linarith), abs_of_nonpos (by linarith)]
      linarith
  refine ⟨q * gap, ?_, hnearest⟩
  have hfinite : ¬limit ≤ q * gap := by
    have hzero := hnear 0
    have hpos : (0 : ℚ) ≤ num / den := by positivity
    rw [Nat.zero_mul, Nat.cast_zero, zero_sub, abs_neg, abs_of_nonneg hpos] at hzero
    have hbound := (abs_le.mp hzero).2
    have hlimit : (2 ^ 128 * one : ℚ) ≤ limit := by exact_mod_cast le_limit
    intro hle
    have hle' : (limit : ℚ) ≤ ((q * gap : Nat) : ℚ) := by exact_mod_cast hle
    linarith
  unfold ofRatio
  exact if_neg hfinite

/-- On a grid there is a point that is off by half a step at most, and it is no further than
the end of the grid. -/
theorem exists_multiple_near {x : ℚ} {step count : Nat} (hstep : 0 < step) (hx : 0 ≤ x)
    (hcount : x < count * step) :
    ∃ k : Nat, |((k * step : Nat) : ℚ) - x| ≤ (step : ℚ) / 2 ∧ k ≤ count := by
  have hs : (0 : ℚ) < step := by exact_mod_cast hstep
  have hratio : x / step * step = x := div_mul_cancel₀ _ hs.ne'
  have hfloor := Nat.floor_le (a := x / step + 1 / 2) (by positivity)
  have hceil := Nat.lt_floor_add_one (x / step + 1 / 2)
  refine ⟨⌊x / step + 1 / 2⌋₊, ?_, ?_⟩
  · push_cast
    rw [abs_le]
    constructor <;> nlinarith
  · have hlt : x / step < count := (div_lt_iff₀ hs).mpr hcount
    have hsucc : (⌊x / step + 1 / 2⌋₊ : ℚ) < ((count + 1 : Nat) : ℚ) := by
      push_cast
      linarith
    exact Nat.lt_succ_iff.mp (by exact_mod_cast hsucc)

namespace Nearest

variable {x : ℚ} {units : Nat}

/-- Zero is held exactly. -/
theorem zero : Nearest 0 0 :=
  ⟨significant_of_le (Nat.zero_le _), fun r _ => by simp⟩

/-- A result that the format holds is exact. -/
theorem eq_of_significant {r : Nat} (h : Nearest (r : ℚ) units) (hr : Significant r) :
    units = r := by
  have hle := h.le r hr
  rw [sub_self, abs_zero] at hle
  have heq := sub_eq_zero.mp (abs_nonpos_iff.mp hle)
  exact_mod_cast heq

/-- What is rounded to is off from a number of the format by twice as much as what was
rounded, at most. -/
theorem off_le (h : Nearest x units) {r : Nat} (hr : Significant r) :
    |(units : ℚ) - r| ≤ 2 * |x - r| := by
  have hle := h.le r hr
  have htriangle := abs_sub_le (units : ℚ) x r
  rw [abs_sub_comm (r : ℚ)] at hle
  linarith

/-- **What is rounded is off by a part in `2 ^ 54` at most** of a power of two above it. -/
theorem error_le (h : Nearest x units) {b : Nat} (hx : 0 ≤ x) (hb : x < 2 ^ b * one) :
    |(units : ℚ) - x| ≤ 2 ^ b * one / 2 ^ 54 := by
  -- The grid of 53 digits below that power of two lies in the format.
  obtain ⟨e, he⟩ : ∃ e, one = 2 ^ 53 * 2 ^ e := ⟨1021, by decide +kernel⟩
  have htop : (2 : ℚ) ^ b * one = (2 ^ 53 : Nat) * ((2 ^ (b + e) : Nat) : ℚ) := by
    rw [he, pow_add]
    push_cast
    ring
  obtain ⟨k, hnear, hcount⟩ := exists_multiple_near (Nat.two_pow_pos (b + e)) hx (htop ▸ hb)
  have hsignificant : Significant (k * 2 ^ (b + e)) := (significant_of_le hcount).mul_pow _
  calc |(units : ℚ) - x|
    _ ≤ ((2 ^ (b + e) : Nat) : ℚ) / 2 := (h.le _ hsignificant).trans hnear
    _ = 2 ^ b * one / 2 ^ 54 := by
      rw [htop]
      push_cast
      ring

/-- What is off by a part in `2 ^ 54` is so again when it is multiplied. -/
theorem error_mul {a v k n unit : ℚ} (hunit : 0 < unit) (hsmall : v < 2 ^ 10)
    (hk : 0 ≤ k) (hk' : k ≤ 2 ^ 20) (hn : v * k = n)
    (herror : |a - v * unit| ≤ 2 ^ 10 * unit / 2 ^ 54) :
    |a * k - n * unit| ≤ 2 ^ 30 * unit / 2 ^ 54 ∧ a * k < 2 ^ 31 * unit := by
  have hscaled : |a * k - n * unit| ≤ 2 ^ 10 * unit / 2 ^ 54 * 2 ^ 20 := by
    rw [← hn, show a * k - v * k * unit = (a - v * unit) * k by ring, abs_mul, abs_of_nonneg hk]
    exact mul_le_mul herror hk' hk (by positivity)
  have hbound : v * k * unit ≤ 2 ^ 10 * 2 ^ 20 * unit :=
    mul_le_mul_of_nonneg_right (mul_le_mul hsmall.le hk' hk (by positivity)) hunit.le
  refine ⟨by linarith, ?_⟩
  have hhigh := (abs_le.mp hscaled).2
  rw [hn] at hbound
  linarith

end Nearest

/-! ## Operations -/

/-- A decimal is read as the nearest number of the format. -/
theorem ofDecimal_nearest {digits places : Nat} (hplaces : places ≤ 300)
    (hsmall : (digits / 10 ^ places : ℚ) < 2 ^ 127) :
    ∃ units, ofDecimal false digits (-(places : Int)) = .finite false units ∧
      Nearest (digits / 10 ^ places * one) units := by
  have hone := cast_one_pos
  have hsmall' := mul_lt_mul_of_pos_right hsmall hone
  unfold ofDecimal
  by_cases hzero : digits = 0
  · refine ⟨0, if_pos hzero, ?_⟩
    rw [hzero, Nat.cast_zero, zero_div, zero_mul]
    exact Nearest.zero
  · rw [if_neg hzero]
    rcases places with _ | e
    · have hnearest := ofRatio_nearest (digits * Nat.pow 10 0 * one) Nat.one_pos false
      have hratio : ((digits * Nat.pow 10 0 * one : Nat) : ℚ) / (1 : Nat) =
          digits / 10 ^ 0 * one := by
        rw [Nat.pow_eq]
        push_cast
        ring
      rw [hratio] at hnearest
      have hexponent : -((0 : Nat) : Int) = Int.ofNat 0 := rfl
      have hrange : ¬400 < 0 := by decide
      simpa only [hexponent, if_neg hrange] using hnearest hsmall'
    · have hden : 0 < Nat.pow 10 (e + 1) := Nat.pow_pos (by decide)
      have hnearest := ofRatio_nearest (digits * one) hden false
      have hratio : ((digits * one : Nat) : ℚ) / (Nat.pow 10 (e + 1) : Nat) =
          digits / 10 ^ (e + 1) * one := by
        rw [Nat.pow_eq]
        push_cast
        ring
      rw [hratio] at hnearest
      have hlog : ¬digits.log2 + 1100 < 3 * e := by omega
      simpa only [Int.neg_ofNat_succ, if_neg hlog] using hnearest hsmall'

/-- The product with a whole number is the nearest number of the format. -/
theorem mul_nearest {a k : Nat} (hsmall : (a * k : ℚ) < 2 ^ 127 * one) :
    ∃ units, (finite false a).mul (.finite false (k * one)) = .finite false units ∧
      Nearest (a * k) units := by
  have hone := cast_one_pos.ne'
  have hnearest := ofRatio_nearest (a * (k * one)) one_pos false
  rw [Nat.cast_mul, Nat.cast_mul, ← mul_assoc, mul_div_cancel_right₀ _ hone] at hnearest
  exact hnearest hsmall

/-- The sum is the nearest number of the format. -/
theorem add_nearest {a b : Nat} (hsmall : (a + b : ℚ) < 2 ^ 127 * one) :
    ∃ units, (finite false a).add (.finite false b) = .finite false units ∧
      Nearest (a + b) units := by
  have hnearest := ofRatio_nearest (a + b) Nat.one_pos false
  push_cast at hnearest
  rw [div_one] at hnearest
  have hsum : ¬((a : Int) + b < 0) := by omega
  have habs : ((a : Int) + b).natAbs = a + b := by omega
  unfold add signedUnits
  simpa [hsum, habs] using hnearest hsmall

/-- A sum that is finite is held by the format, whatever was added. -/
theorem significant_of_add {x y : Binary64} {sign : Bool} {units : Nat}
    (h : x.add y = .finite sign units) : Significant units := by
  rcases x with _ | s | ⟨s, a⟩ <;> rcases y with _ | t | ⟨t, b⟩
  case finite.finite =>
    simp only [add] at h
    exact significant_of_ofRatio h
  case infinite.infinite =>
    have hnot : (if s = t then infinite s else nan) = .finite sign units := h
    split at hnot <;> cases hnot
  all_goals simp [add] at h

/-! ## Whole numbers -/

/-- Rounding to an integer finds what a number is off from by less than a half. -/
theorem nearestInt?_of_near {units n : Nat} (h : |(units : ℚ) - n * one| < one / 2) :
    (finite false units).nearestInt? = some (n : Int) := by
  have hone := cast_one_pos
  have hclose : |(units / one : ℚ) - n| < 1 / 2 := by
    rw [← mul_lt_mul_iff_of_pos_right hone, ← abs_of_pos hone, ← abs_mul, abs_of_pos hone, sub_mul,
      div_mul_cancel₀ _ hone.ne']
    linarith
  simp [nearestInt?, divNearest_eq one_pos hclose]

/-- A number of the format is rounded to an integer that the format holds: where it has a
fraction, all smaller integers are held. -/
theorem Significant.divNearest_one {units : Nat} (h : Significant units) :
    Significant (divNearest units one) := by
  have hone := cast_one_pos
  by_cases hsmall : divNearest units one ≤ 2 ^ 53
  · exact significant_of_le hsmall
  · obtain ⟨m, e, rfl, hm⟩ := h
    have herror := (abs_le.mp (divNearest_error (m * 2 ^ e) one_pos)).2
    have hlarge : ((2 ^ 53 + 1 : Nat) : ℚ) ≤ divNearest (m * 2 ^ e) one := by
      exact_mod_cast Nat.lt_of_not_le hsmall
    have hquotient : (2 ^ 53 : ℚ) < ((m * 2 ^ e : Nat) : ℚ) / one := by
      push_cast at hlarge ⊢
      push_cast at herror
      linarith
    have hproduct : 2 ^ 53 * one < m * 2 ^ e := by
      rw [lt_div_iff₀ hone] at hquotient
      exact_mod_cast hquotient
    have hpow : one < 2 ^ e :=
      Nat.lt_of_mul_lt_mul_left (hproduct.trans_le (Nat.mul_le_mul_right _ hm.le))
    obtain ⟨k, hk⟩ := exists_one_eq
    rw [hk, Nat.pow_lt_pow_iff_right Nat.one_lt_two] at hpow
    obtain ⟨f, rfl⟩ := Nat.exists_eq_add_of_le hpow.le
    have hunits : m * 2 ^ (k + f) = m * 2 ^ f * one := by
      rw [hk, Nat.pow_add]
      ring
    refine ⟨m, f, divNearest_eq one_pos ?_, hm⟩
    rw [hunits, Nat.cast_mul, mul_div_cancel_right₀ _ hone.ne']
    simp

end AppSynthesis.Binary64
