/-
AppSynthesis.Proofs.Duration.Range — how long a text of the grammar may be.

* `Duration.Far` — sums that no duration comes near to, and those beyond the format.
* `Duration.ReadAs` — what parts are read as: a number near to what they are worth, or a sum
  that is far.
* `Duration.Part.micros_readAs`, `Duration.sum_readAs` — every part is read so, and so are parts
  that are added up one after the other.
* `Duration.ReadAs.ofSum_of_le`, `Duration.ReadAs.ofSum_of_ge` — which sums are durations and
  which are not.
* `Duration.Spelled.parse_of_le`, `Duration.Spelled.parse_of_ge` — so a text of the grammar is a
  duration if its parts come to less than the longest one, and out of range if they come to more,
  up to the errors of the parts.
* `parseDuration_cases` — what a value can lead to.

A part may have any number of digits, so nothing bounds the sum and it may be infinite. Errors are
relative to the sum, but it is enough to follow them up to `2 ^ 67` microseconds, more than four
million years, where they are below a quarter of a second for each part. A sum that was beyond
that once does not come back, for rounding never leads below a number of the format
(`Binary64.le_ofRatio`).
-/
import AppSynthesis.Proofs.Duration.Canonical
import AppSynthesis.Proofs.Number.Relative

namespace AppSynthesis.Duration

open Binary64

/-! ## Numbers and their errors -/

/-- Numbers that no duration comes near to, and those beyond the format. -/
inductive Far : Binary64 → Prop
  | finite {units : Nat} (large : 2 ^ 67 * one ≤ units) : Far (.finite false units)
  | infinite : Far (.infinite false)

/-- What is read when `worth` is meant: a number that is off by `off` at most, or one that is
far. -/
inductive ReadAs (worth off : ℚ) : Binary64 → Prop
  | near {units : Nat} (error : |(units / one : ℚ) - worth| ≤ off) :
    ReadAs worth off (.finite false units)
  | far {micros : Binary64} (far : Far micros) (large : 2 ^ 67 ≤ worth + off) :
    ReadAs worth off micros

/-- Half a unit. -/
def halfUnit : ℚ := 1 / 2 / one

theorem halfUnit_pos : 0 < halfUnit := div_pos (by norm_num) cast_one_pos

theorem halfUnit_le : halfUnit ≤ 1 / 2 ^ 80 := by
  have hone : 2 ^ 80 ≤ one := by decide +kernel
  have hone' : (2 ^ 80 : ℚ) ≤ one := by exact_mod_cast hone
  have hpos := cast_one_pos
  rw [halfUnit, div_le_div_iff₀ hpos (by positivity)]
  linarith

/-- Errors in ones instead of units. -/
theorem scaled_error {x : ℚ} {units : Nat}
    (h : |(units : ℚ) - x * one| ≤ x * one / 2 ^ 53 + 1 / 2) :
    |(units / one : ℚ) - x| ≤ x / 2 ^ 53 + halfUnit := by
  have hone := cast_one_pos
  have hscale : (units / one : ℚ) - x = (units - x * one) / one := by
    rw [sub_div, mul_div_cancel_right₀ _ hone.ne']
  rw [hscale, abs_div, abs_of_pos hone, div_le_iff₀ hone]
  have hhalf : halfUnit * one = 1 / 2 := div_mul_cancel₀ _ hone.ne'
  calc |(units : ℚ) - x * one|
    _ ≤ x * one / 2 ^ 53 + 1 / 2 := h
    _ = (x / 2 ^ 53 + halfUnit) * one := by rw [add_mul, hhalf]; ring

/-! ## Parts -/

/-- A unit is read with this precision. -/
theorem TimeUnit.micros_near (unit : TimeUnit) :
    ∃ k : Nat, unit.micros = .finite false k ∧
      |(k / one : ℚ) - unit.worth| ≤ unit.worth / 2 ^ 53 + halfUnit := by
  have hexact (unit : TimeUnit) (n : Nat) (hunit : unit.micros = .finite false (n * one))
      (hworth : unit.worth = n) : ∃ k : Nat, unit.micros = .finite false k ∧
        |(k / one : ℚ) - unit.worth| ≤ unit.worth / 2 ^ 53 + halfUnit := by
    refine ⟨n * one, hunit, ?_⟩
    have hpos := halfUnit_pos
    rw [hworth, Nat.cast_mul, mul_div_cancel_right₀ _ cast_one_pos.ne', sub_self, abs_zero]
    positivity
  cases unit with
  | hour => exact hexact .hour 3600000000 (by decide +kernel) (by norm_num [worth])
  | minute => exact hexact .minute 60000000 (by decide +kernel) (by norm_num [worth])
  | second => exact hexact .second 1000000 (by decide +kernel) (by norm_num [worth])
  | milli => exact hexact .milli 1000 (by decide +kernel) (by norm_num [worth])
  | micro => exact hexact .micro 1 (by decide +kernel) (by norm_num [worth])
  | microSign => exact hexact .microSign 1 (by decide +kernel) (by norm_num [worth])
  | nano =>
    have hrounded := ofDecimal_rounded 1 3
    have hworth : ((1 : Nat) / 10 ^ 3 : ℚ) = worth .nano := by norm_num [worth]
    rw [hworth] at hrounded
    have hfinite : ∃ k, micros .nano = .finite false k := by
      refine ⟨divNearest one (1000 * spacing (one / 1000)) * spacing (one / 1000), ?_⟩
      decide +kernel
    obtain ⟨k, hk⟩ := hfinite
    refine ⟨k, hk, ?_⟩
    have hmicros : ofDecimal false 1 (-((3 : Nat) : Int)) = .finite false k := hk
    rw [hmicros] at hrounded
    cases hrounded with
    | finite near => exact scaled_error near

theorem TimeUnit.worth_bounds (unit : TimeUnit) :
    1 / 2 ^ 10 ≤ unit.worth ∧ unit.worth ≤ 2 ^ 32 := by
  cases unit <;> norm_num [worth]

/-- The errors of both factors add up. -/
theorem product_error {a v u q : ℚ} (hv : 0 ≤ v) (hu : 0 ≤ u) (hq : 1 / 2 ^ 10 ≤ q)
    (hq' : q ≤ 2 ^ 32) (ha : |a - v| ≤ v / 2 ^ 53 + halfUnit)
    (huq : |u - q| ≤ q / 2 ^ 53 + halfUnit) :
    |a * u - v * q| ≤ v * q * 9 / 4 / 2 ^ 53 + 1 / 2 ^ 40 := by
  have htiny := halfUnit_le
  have hpos := halfUnit_pos
  have huq' : |u - q| ≤ q * 9 / 8 / 2 ^ 53 := by linarith
  have hhigh : u ≤ q * (1 + 1 / 2 ^ 50) := by linarith [(abs_le.mp huq').2]
  have hvq : 0 ≤ v * q := mul_nonneg hv (by linarith)
  have hhalf : halfUnit * q ≤ 1 / 2 ^ 80 * 2 ^ 32 :=
    mul_le_mul htiny hq' (by linarith) (by norm_num)
  calc |a * u - v * q|
    _ = |(a - v) * u + v * (u - q)| := by congr 1; ring
    _ ≤ |a - v| * u + v * |u - q| :=
      (abs_add_le _ _).trans_eq (by rw [abs_mul, abs_mul, abs_of_nonneg hu, abs_of_nonneg hv])
    _ ≤ (v / 2 ^ 53 + halfUnit) * (q * (1 + 1 / 2 ^ 50)) + v * (q * 9 / 8 / 2 ^ 53) := by
      gcongr
    _ ≤ v * q * 9 / 4 / 2 ^ 53 + 1 / 2 ^ 40 := by linarith

theorem Part.value_nonneg (p : Part) : 0 ≤ p.value := div_nonneg (Nat.cast_nonneg _) (by positivity)

theorem Part.worth_nonneg (p : Part) : 0 ≤ p.worth :=
  mul_nonneg p.value_nonneg (le_trans (by norm_num) p.unit.worth_bounds.1)

/-- What is beyond the format is large. -/
theorem large_of_limit {x : ℚ} (h : (limit : ℚ) ≤ 2 * (x * one)) : 2 ^ 127 ≤ x := by
  have hlimit : (2 ^ 128 * one : ℚ) ≤ limit := by exact_mod_cast le_limit
  have hle : 2 ^ 127 * (one : ℚ) ≤ x * one := by linarith
  rwa [mul_le_mul_iff_of_pos_right cast_one_pos] at hle

/-- What is off by little from a large number is far. -/
theorem far_of_error {w : ℚ} {units : Nat} (hw : 2 ^ 68 ≤ w)
    (h : |(units / one : ℚ) - w| ≤ w / 2 ^ 51 + 1) : Far (.finite false units) := by
  have hone := cast_one_pos
  refine .finite ?_
  have hlow : (2 ^ 67 : ℚ) ≤ units / one := by linarith [(abs_le.mp h).1]
  rw [le_div_iff₀ hone] at hlow
  exact_mod_cast hlow

/-- The product of two factors that were read. -/
theorem mul_readAs {v q : ℚ} {a k : Nat} (hv : 0 ≤ v) (hq : 1 / 2 ^ 10 ≤ q) (hq' : q ≤ 2 ^ 32)
    (ha : |(a / one : ℚ) - v| ≤ v / 2 ^ 53 + halfUnit)
    (hk : |(k / one : ℚ) - q| ≤ q / 2 ^ 53 + halfUnit) :
    ReadAs (v * q) (2 ^ 17 + 1) ((finite false a).mul (.finite false k)) := by
  have hone := cast_one_pos
  have htiny := halfUnit_le
  have hvq : 0 ≤ v * q := mul_nonneg hv (by linarith)
  have hproduct := product_error hv (div_nonneg k.cast_nonneg hone.le) hq hq' ha hk
  have hrounded := mul_rounded a k
  have hscale : (a * k / one : ℚ) = a / one * (k / one) * one := by field_simp
  rw [hscale] at hrounded
  generalize (finite false a).mul (.finite false k) = product at hrounded ⊢
  cases hrounded with
  | infinite large =>
    have hlarge := large_of_limit large
    exact .far .infinite (by linarith [(abs_le.mp hproduct).2])
  | @finite m near =>
    have herror : |(m / one : ℚ) - v * q| ≤ v * q / 2 ^ 51 + 1 := by
      have htriangle := abs_sub_le (m / one : ℚ) (a / one * (k / one)) (v * q)
      linarith [scaled_error near, (abs_le.mp hproduct).2]
    -- Twice what `Far` asks for, which leaves room for the error.
    by_cases hsmall : v * q ≤ 2 ^ 68
    · exact .near (herror.trans (by linarith))
    · exact .far (far_of_error (by linarith) herror) (by linarith)

/-- **Every part is read as what it is worth**, up to an eighth of a second, or is far. -/
theorem Part.micros_readAs (p : Part) : ReadAs p.worth (2 ^ 17 + 1) p.micros := by
  have hv := p.value_nonneg
  obtain ⟨hq, hq'⟩ := p.unit.worth_bounds
  obtain ⟨k, hunit, hk⟩ := p.unit.micros_near
  have hamount : Rounded (p.value * one) p.amount := ofDecimal_rounded _ _
  unfold Part.micros
  rw [hunit]
  generalize p.amount = amount at hamount ⊢
  cases hamount with
  | finite near => exact mul_readAs hv hq hq' (scaled_error near) hk
  | infinite large =>
    have hk' : k ≠ 0 := by
      rintro rfl
      rw [Nat.cast_zero, zero_div, zero_sub, abs_neg] at hk
      linarith [le_abs_self p.unit.worth, halfUnit_le]
    have hworth : 2 ^ 127 * (1 / 2 ^ 10) ≤ p.worth :=
      mul_le_mul (large_of_limit large) hq (by norm_num) hv
    have hmul : (Binary64.infinite false).mul (.finite false k) = .infinite false := if_neg hk'
    rw [hmul]
    exact .far .infinite (by linarith)

/-! ## Sums -/

theorem ReadAs.cases {worth off : ℚ} {micros : Binary64} (h : ReadAs worth off micros) :
    (∃ units, micros = .finite false units) ∨ micros = .infinite false := by
  cases h with
  | near _ => exact Or.inl ⟨_, rfl⟩
  | far hfar _ =>
    cases hfar with
    | finite _ => exact Or.inl ⟨_, rfl⟩
    | infinite => exact Or.inr rfl

theorem far_ofRatio {n : Nat} (h : 2 ^ 67 * one ≤ n) : Far (ofRatio false n 1) := by
  have hpower : Significant (2 ^ 67) := ⟨1, 67, by norm_num, by norm_num⟩
  have hrounded := ofRatio_rounded n Nat.one_pos
  cases hresult : ofRatio false n 1 with
  | nan =>
    rw [hresult] at hrounded
    cases hrounded
  | infinite sign =>
    rw [hresult] at hrounded
    cases hrounded
    exact .infinite
  | finite sign units =>
    have hle := le_ofRatio hpower.units (by rwa [Nat.div_one]) hresult
    rw [hresult] at hrounded
    cases hrounded
    exact .finite hle

variable {w v off off' : ℚ} {x y : Binary64}

/-- **What is far stays far**, whatever else was read. -/
theorem Far.add (hx : ReadAs w off x) (hy : ReadAs v off' y) (h : Far x ∨ Far y) :
    Far (x.add y) := by
  rcases hx.cases with ⟨a, rfl⟩ | rfl
  · rcases hy.cases with ⟨b, rfl⟩ | rfl
    · rw [add_finite]
      apply far_ofRatio
      rcases h with hfar | hfar
      · cases hfar with
        | finite hlarge => exact hlarge.trans (Nat.le_add_right a b)
      · cases hfar with
        | finite hlarge => exact hlarge.trans (Nat.le_add_left b a)
    · exact .infinite
  · rcases hy.cases with ⟨b, rfl⟩ | rfl
    · exact .infinite
    · exact .infinite

/-- **What one more part adds** to the sum, its error included. -/
theorem ReadAs.add (hx : ReadAs w off x) (hy : ReadAs v (2 ^ 17 + 1) y) (hw : 0 ≤ w) (hv : 0 ≤ v)
    (hoff : 0 ≤ off) : ReadAs (w + v) (off + 2 ^ 18) (x.add y) := by
  have hone := cast_one_pos
  cases hx with
  | far hfar hlarge => exact .far (Far.add (.far hfar hlarge) hy (Or.inl hfar)) (by linarith)
  | @near a ha =>
    cases hy with
    | far hfar hlarge =>
      exact .far (Far.add (.near ha) (.far hfar hlarge) (Or.inr hfar)) (by linarith)
    | @near b hb =>
      have hsum : ((a + b : Nat) / one : ℚ) = a / one + b / one := by
        rw [Nat.cast_add, add_div]
      rw [add_finite]
      -- Up to `2 ^ 67` one more rounding costs `2 ^ 14` at most; beyond, only the size counts.
      by_cases hsmall : a + b < 2 ^ 67 * one
      · have hsmall' : (a / one + b / one : ℚ) < 2 ^ 67 := by
          rw [← hsum, div_lt_iff₀ hone]
          exact_mod_cast hsmall
        have hrounded := add_rounded a b
        have hscale : (a + b : ℚ) = (a / one + b / one) * one := by
          rw [← add_div, div_mul_cancel₀ _ hone.ne']
        rw [add_finite, hscale] at hrounded
        generalize ofRatio false (a + b) 1 = total at hrounded ⊢
        cases hrounded with
        | infinite large => linarith [large_of_limit large]
        | @finite units near =>
          have hlast := abs_le.mp (scaled_error near)
          have htiny := halfUnit_le
          have ha' := abs_le.mp ha
          have hb' := abs_le.mp hb
          exact .near (abs_le.mpr ⟨by linarith, by linarith⟩)
      · have hlarge : (2 ^ 67 : ℚ) ≤ a / one + b / one := by
          rw [← hsum, le_div_iff₀ hone]
          exact_mod_cast Nat.le_of_not_lt hsmall
        refine .far (far_ofRatio (Nat.le_of_not_lt hsmall)) ?_
        linarith [(abs_le.mp ha).2, (abs_le.mp hb).2]

/-- What parts come to. -/
def worth (parts : List Part) : ℚ := (parts.map Part.worth).sum

/-- How far off parts are at most that are added up: `2 ^ 18` microseconds for each, about a
quarter of a second. -/
def tolerance (parts : List Part) : ℚ := parts.length * 2 ^ 18

theorem worth_nonneg (parts : List Part) : 0 ≤ worth parts := by
  refine List.sum_nonneg fun w hw => ?_
  obtain ⟨p, -, rfl⟩ := List.mem_map.mp hw
  exact p.worth_nonneg

/-- **Parts that are added up are read as what they come to**, within the tolerance, or are
far. -/
theorem sum_readAs (parts : List Part) : ReadAs (worth parts) (tolerance parts) (sum parts) := by
  induction parts using List.reverseRecOn with
  | nil =>
    have hworth : worth [] = 0 := List.sum_nil
    have htolerance : tolerance [] = 0 := by norm_num [tolerance]
    rw [hworth, htolerance]
    exact .near (by rw [Nat.cast_zero, zero_div, sub_self, abs_zero])
  | append_singleton front p ih =>
    have hworth : worth (front ++ [p]) = worth front + p.worth := by
      unfold worth
      rw [List.map_append, List.sum_append, List.map_singleton, List.sum_singleton]
    have htolerance : tolerance (front ++ [p]) = tolerance front + 2 ^ 18 := by
      unfold tolerance
      rw [List.length_append, List.length_singleton]
      push_cast
      ring
    have hoff : 0 ≤ tolerance front := mul_nonneg (Nat.cast_nonneg _) (by norm_num)
    rw [sum_append, hworth, htolerance]
    exact ih.add p.micros_readAs (worth_nonneg front) p.worth_nonneg hoff

/-! ## Durations -/

theorem least_eq : least = -86399999913600000000 := by decide

theorem greatest_eq : greatest = 86399999999999999999 := by decide

section

variable {negative : Bool} {units : Nat} {micros : Binary64}

theorem ofSum_finite : ofSum negative (.finite false units) =
    match ofMicros? (if negative then -(divNearest units one : Int) else divNearest units one) with
    | none => .error .outOfRange
    | some d => .ok d := rfl

theorem ofSum_finite_of_le (h : (divNearest units one : Int) ≤ -least) :
    ∃ d, ofSum negative (.finite false units) = .ok d ∧
      d.micros = if negative then -(divNearest units one : Int) else divNearest units one := by
  have hleast := least_eq
  have hgreatest := greatest_eq
  generalize hn : (if negative then -(divNearest units one : Int) else divNearest units one) = n
  have hrange : least ≤ n ∧ n ≤ greatest := by
    rw [← hn]
    split <;> omega
  refine ⟨⟨n, hrange.1, hrange.2⟩, ?_, rfl⟩
  have hsome : ofMicros? n = some ⟨n, hrange.1, hrange.2⟩ := ofMicros?_eq_some_iff.mpr rfl
  rw [ofSum_finite, hn, hsome]

theorem ofSum_finite_of_lt (h : greatest < (divNearest units one : Int)) :
    ofSum negative (.finite false units) = .error .outOfRange := by
  have hleast := least_eq
  have hgreatest := greatest_eq
  generalize hn : (if negative then -(divNearest units one : Int) else divNearest units one) = n
  have hnone : ofMicros? n = none := by
    refine dif_neg fun hrange => ?_
    rw [← hn] at hrange
    split at hrange <;> omega
  rw [ofSum_finite, hn, hnone]

/-- Rounded to whole microseconds it is off by a half more. -/
theorem divNearest_off (h : |(units / one : ℚ) - w| ≤ off) :
    |(divNearest units one : ℚ) - w| ≤ off + 1 / 2 := by
  have herror := divNearest_error units Binary64.one_pos
  have htriangle := abs_sub_le (divNearest units one : ℚ) (units / one) w
  linarith

/-- What is far is no duration. -/
theorem Far.ofSum (h : Far micros) : ofSum negative micros = .error .outOfRange := by
  cases h with
  | infinite => rfl
  | @finite units large =>
    have hquotient : 2 ^ 67 ≤ units / one := (Nat.le_div_iff_mul_le Binary64.one_pos).mpr large
    have hlarge : 2 ^ 67 ≤ divNearest units one := by
      unfold divNearest
      split <;> omega
    have hgreatest := greatest_eq
    exact ofSum_finite_of_lt (by omega)

/-- **Sums that are durations**: what was meant is less than the longest one, errors included. -/
theorem ReadAs.ofSum_of_le (h : ReadAs w off micros) (hle : w + off ≤ ((-least : Int) : ℚ)) :
    ∃ d, ofSum negative micros = .ok d ∧
      |(d.micros : ℚ) - (if negative then -w else w)| ≤ off + 1 / 2 := by
  have hleast : ((-least : Int) : ℚ) = 86399999913600000000 := by rw [least_eq]; norm_num
  cases h with
  | far _ large => linarith
  | @near units error =>
    have hoff := divNearest_off error
    have hbound : (divNearest units one : ℚ) < ((-least + 1 : Int) : ℚ) := by
      push_cast at hle ⊢
      linarith [(abs_le.mp hoff).2]
    have hbound' : (divNearest units one : Int) < -least + 1 := by exact_mod_cast hbound
    obtain ⟨d, hd, hmicros⟩ :
        ∃ d, Duration.ofSum negative (.finite false units) = .ok d ∧ d.micros = _ :=
      ofSum_finite_of_le (Int.lt_add_one_iff.mp hbound')
    refine ⟨d, hd, ?_⟩
    rw [hmicros]
    cases negative with
    | false =>
      rw [if_neg Bool.false_ne_true, if_neg Bool.false_ne_true, Int.cast_natCast]
      exact hoff
    | true =>
      rw [if_pos rfl, if_pos rfl, Int.cast_neg, Int.cast_natCast, neg_sub_neg, abs_sub_comm]
      exact hoff

/-- **Sums that are not**: what was meant is more than the longest one, errors included. -/
theorem ReadAs.ofSum_of_ge (h : ReadAs w off micros) (hge : ((greatest + 1 : Int) : ℚ) + off ≤ w) :
    Duration.ofSum negative micros = .error .outOfRange := by
  cases h with
  | far hfar _ => exact hfar.ofSum
  | @near units error =>
    have hbound : ((greatest : Int) : ℚ) < divNearest units one := by
      push_cast at hge
      linarith [(abs_le.mp (divNearest_off error)).1]
    exact ofSum_finite_of_lt (by exact_mod_cast hbound)

end

/-! ## Texts -/

variable {s : String} {sign : Option Char} {parts : List Part}

/-- The spelling of parts behind a sign, if there is one, with blanks around them. -/
structure Spelled (s : String) (sign : Option Char) (parts : List Part) : Prop where
  text : Text.Trimmed Text.isBlank s.toList (sign.toList ++ parts.flatMap Part.written)
  sign : ∀ c ∈ sign, c = '+' ∨ c = '-'
  ne_nil : parts ≠ []
  valid : ∀ p ∈ parts, p.Valid

/-- A zero by itself, which needs no unit. -/
structure SpelledZero (s : String) (sign : Option Char) : Prop where
  text : Text.Trimmed Text.isBlank s.toList (sign.toList ++ ['0'])
  sign : ∀ c ∈ sign, c = '+' ∨ c = '-'

/-- **The texts of the grammar** are zeros by themselves and spellings of parts. -/
theorem grammar_iff_spelled :
    Grammar s ↔ (∃ sign, SpelledZero s sign) ∨ ∃ sign parts, Spelled s sign parts := by
  constructor
  · rintro ⟨_, htext, sign, body, rfl, hsign, hbody⟩
    cases hbody with
    | zero => exact Or.inl ⟨sign, htext, hsign⟩
    | parts hne hvalid => exact Or.inr ⟨sign, _, htext, hsign, hne, hvalid⟩
  · rintro (⟨sign, h⟩ | ⟨sign, parts, h⟩)
    · exact ⟨_, h.text, sign, _, rfl, h.sign, .zero⟩
    · exact ⟨_, h.text, sign, _, rfl, h.sign, .parts h.ne_nil h.valid⟩

theorem SpelledZero.parse (h : SpelledZero s sign) : parse s = .ok zero := by
  unfold Duration.parse
  rw [← Text.trimmed_iff.mp h.text, Body.zero.signed h.sign]
  rfl

/-- Parts are no zero by itself, since they end with a unit. -/
theorem Spelled.body_ne (h : Spelled s sign parts) : parts.flatMap Part.written ≠ ['0'] := by
  intro hzero
  have hsplit := parts?_written h.ne_nil h.valid
  rw [hzero, parts?_of_none (by decide)] at hsplit
  cases hsplit

theorem Spelled.parse (h : Spelled s sign parts) :
    parse s = ofSum (decide (sign = some '-')) (sum parts) := by
  unfold Duration.parse
  rw [← Text.trimmed_iff.mp h.text, (Body.parts h.ne_nil h.valid).signed h.sign]
  simp only [if_neg h.body_ne, parts?_written h.ne_nil h.valid]

/-- **Texts within the range** denote what their parts come to. -/
theorem Spelled.parse_of_le (h : Spelled s sign parts)
    (hle : worth parts + tolerance parts ≤ ((-least : Int) : ℚ)) :
    ∃ d, Duration.parse s = .ok d ∧
      |(d.micros : ℚ) - (if sign = some '-' then -worth parts else worth parts)| ≤
        tolerance parts + 1 / 2 := by
  obtain ⟨d, hd, hnear⟩ :
      ∃ d, ofSum (decide (sign = some '-')) (sum parts) = .ok d ∧ |(d.micros : ℚ) - _| ≤ _ :=
    (sum_readAs parts).ofSum_of_le hle
  refine ⟨d, h.parse.trans hd, ?_⟩
  simpa only [decide_eq_true_eq] using hnear

/-- **Texts beyond the range** are in the grammar all the same. -/
theorem Spelled.parse_of_ge (h : Spelled s sign parts)
    (hge : ((greatest + 1 : Int) : ℚ) + tolerance parts ≤ worth parts) :
    Duration.parse s = .error .outOfRange :=
  h.parse.trans ((sum_readAs parts).ofSum_of_ge hge)

end AppSynthesis.Duration

namespace AppSynthesis

/-! ## Values -/

theorem parseDuration_fault_iff {v : Value} {e : Fault} :
    parseDuration v = .error (.fault e) ↔
      e = .outOfRange ∧ ∃ s, v = .str s ∧ Duration.parse s = .error .outOfRange := by
  constructor
  · intro h
    unfold parseDuration at h
    split at h
    · cases h
    · rename_i s
      split at h
      · cases h
      · cases h
      · rename_i hrange
        exact ⟨(Error.fault.inj (Except.error.inj h)).symm, s, rfl, hrange⟩
    · cases h
  · rintro ⟨rfl, s, rfl, hrange⟩
    unfold parseDuration
    dsimp only
    rw [hrange]

/-- **What a value can lead to.** Null is no duration, and what is not a text of the grammar is an
input error. A zero by itself is a duration; parts are one, or they are out of range. -/
theorem parseDuration_cases (v : Value) :
    (v = .null ∧ parseDuration v = .ok none) ∨
    (v ≠ .null ∧ (∀ s, v = .str s → ¬ Duration.Grammar s) ∧
      ∃ cause, parseDuration v = .error (.input cause)) ∨
    (∃ s sign, v = .str s ∧ Duration.SpelledZero s sign ∧
      parseDuration v = .ok (some Duration.zero)) ∨
    ∃ s sign parts, v = .str s ∧ Duration.Spelled s sign parts ∧
      ((∃ d, parseDuration v = .ok (some d)) ∨ parseDuration v = .error (.fault .outOfRange)) := by
  by_cases htext : ∃ s, v = .str s ∧ Duration.Grammar s
  · obtain ⟨s, rfl, hgrammar⟩ := htext
    rcases Duration.grammar_iff_spelled.mp hgrammar with ⟨sign, hzero⟩ | ⟨sign, parts, hspelled⟩
    · exact Or.inr (Or.inr (Or.inl ⟨s, sign, rfl, hzero, parseDuration_str_eq_ok.mpr hzero.parse⟩))
    · refine Or.inr (Or.inr (Or.inr ⟨s, sign, parts, rfl, hspelled, ?_⟩))
      cases hparse : Duration.parse s with
      | ok d => exact Or.inl ⟨d, parseDuration_str_eq_ok.mpr hparse⟩
      | error refusal =>
        cases refusal with
        | malformed => exact absurd hgrammar (Duration.parse_eq_malformed_iff.mp hparse)
        | outOfRange => exact Or.inr (parseDuration_fault_iff.mpr ⟨rfl, s, rfl, hparse⟩)
  · cases v with
    | null => exact Or.inl ⟨rfl, rfl⟩
    | str s =>
      have hout : ¬ Duration.Grammar s := fun h => htext ⟨s, rfl, h⟩
      have hrefused : parseDuration (.str s) = .error (.input (.malformedDuration s)) := by
        unfold parseDuration
        dsimp only
        rw [Duration.parse_eq_malformed_iff.mpr hout]
      refine Or.inr (Or.inl ⟨nofun, ?_, _, hrefused⟩)
      rintro _ ⟨⟩
      exact hout
    | _ => exact Or.inr (Or.inl ⟨nofun, nofun, _, rfl⟩)

end AppSynthesis
