/-
AppSynthesis.Proofs.Duration.RoundTrip — which durations are read again from their written
form.

* `Duration.parse_text` — the written form of a duration is read as the sum of its parts.
* `Duration.significant_of_parse` — no text is read as a duration whose microseconds take
  more than 53 binary digits.
* `Duration.sum_spelling` — up to `2 ^ 61` microseconds the sum of the parts is off by less
  than a half.
* `parseDuration_text` — so those durations up to that size that take no more digits, and no
  others, are read again as they were.

Hours and minutes are exact: both are multiples of `2 ^ 8` microseconds, and up to `2 ^ 61`
such multiples take no more than 53 digits. Seconds are not, for a decimal fraction is rounded
when it is read, and again when it is multiplied by the unit. Their error is far below a
microsecond, and the last addition, which rounds a third time, cannot make it worse than twice
as large: the duration itself is among the numbers it can round to (`Binary64.Nearest.off_le`).
-/
import AppSynthesis.Proofs.Duration.Grammar
import AppSynthesis.Proofs.Duration.Spelling
import AppSynthesis.Proofs.Number.Rounding
import AppSynthesis.Proofs.Schema.Fields

namespace AppSynthesis.Duration

/-! ## Reading the written form -/

/-- A digit is no blank and no sign. -/
theorem not_blank_of_isDigit {c : Char} (h : c.isDigit = true) :
    Text.isBlank c = false ∧ c ≠ '-' ∧ c ≠ '+' := by
  have hrange : 48 ≤ c.toNat ∧ c.toNat ≤ 57 := by
    simpa [Char.isDigit, UInt32.le_iff_toNat_le] using h
  refine ⟨?_, ?_, ?_⟩
  · simp only [Text.isBlank, Text.isPlainBlank, Text.isWideBlank, Bool.or_eq_false_iff,
      Bool.and_eq_false_iff, beq_eq_false_iff_ne, decide_eq_false_iff_not]
    omega
  · rintro rfl
    simp at hrange
  · rintro rfl
    simp at hrange

/-- The written form begins with a digit. -/
theorem spelling_first (micros : Nat) :
    ∃ c tail, (spelling micros).flatMap Part.written = c :: tail ∧ c.isDigit = true := by
  obtain ⟨p, rest, h⟩ := List.exists_cons_of_ne_nil (spelling_ne_nil micros)
  obtain ⟨n, hn⟩ := whole_spelling (h ▸ List.mem_cons_self : p ∈ spelling micros)
  obtain ⟨c, tail, hdigits⟩ := List.exists_cons_of_ne_nil (Nat.toDigits_ne_nil (n := n) (b := 10))
  have hc : c ∈ Nat.toDigits 10 n := hdigits ▸ List.mem_cons_self
  refine ⟨c, tail ++ fractionWritten p.fraction ++ p.unit.written ++ rest.flatMap Part.written, ?_,
    Nat.isDigit_of_mem_toDigits (by decide) (Nat.le_refl 10) hc⟩
  rw [h, List.flatMap_cons, Part.written, hn, hdigits]
  rfl

/-- It ends with a unit of seconds or less. -/
theorem spelling_last (micros : Nat) :
    ∃ front, (spelling micros).flatMap Part.written = front ++ ['s'] := by
  have hunit : ∃ front, (spellingLast micros).unit.written = front ++ ['s'] := by
    unfold spellingLast
    split
    · exact ⟨[], rfl⟩
    · split
      · exact ⟨['µ'], rfl⟩
      · split
        · exact ⟨['m'], rfl⟩
        · exact ⟨[], rfl⟩
  obtain ⟨front, hfront⟩ := hunit
  unfold spelling
  rw [List.flatMap_append, List.flatMap_singleton, Part.written, hfront, ← List.append_assoc,
    ← List.append_assoc]
  exact ⟨_, rfl⟩

/-- **The written form of a duration is read as the sum of its parts.** -/
theorem parse_text (d : Duration) :
    parse d.text = ofSum (decide (d.micros < 0)) (sum (spelling d.micros.natAbs)) := by
  obtain ⟨c, tail, hfirst, hdigit⟩ := spelling_first d.micros.natAbs
  obtain ⟨front, hlast⟩ := spelling_last d.micros.natAbs
  obtain ⟨hblank, hminus, hplus⟩ := not_blank_of_isDigit hdigit
  have hsigned : Text.signed (Text.trimBoth Text.isBlank d.text.toList) =
      (decide (d.micros < 0), (spelling d.micros.natAbs).flatMap Part.written) := by
    have hend : Text.isBlank 's' = false := by decide
    rw [text_toList]
    by_cases hneg : d.micros < 0
    · rw [if_pos hneg, List.singleton_append, Text.trimBoth_eq_self]
      · simp [Text.signed, hneg]
      · rintro _ ⟨⟩
        decide
      · simp [hlast, hend, List.getLast?_cons]
    · rw [if_neg hneg, List.nil_append, Text.trimBoth_eq_self]
      · simp [Text.signed, hneg, hfirst, hminus, hplus]
      · simp [hfirst, hblank]
      · simp [hlast, hend]
  have hbody : (spelling d.micros.natAbs).flatMap Part.written ≠ ['0'] := by
    rw [hlast]
    intro h
    have := congrArg List.getLast? h
    simp at this
  have hparts := parts?_written (spelling_ne_nil d.micros.natAbs) fun _ => valid_spelling
  unfold parse
  rw [hsigned]
  simp only [if_neg hbody, hparts]

/-! ## What is read takes 53 digits -/

theorem sum_append (parts : List Part) (p : Part) :
    sum (parts ++ [p]) = (sum parts).add p.micros := by
  unfold sum
  rw [List.foldl_append]
  rfl

theorem significant_sum {parts : List Part} {sign : Bool} {units : Nat}
    (h : sum parts = .finite sign units) : Binary64.Significant units := by
  rcases List.eq_nil_or_concat parts with rfl | ⟨front, p, rfl⟩
  · obtain ⟨-, rfl⟩ := Binary64.finite.inj h
    exact Binary64.significant_of_le (Nat.zero_le _)
  · rw [List.concat_eq_append, sum_append] at h
    exact Binary64.significant_of_add h

theorem ofSum_eq_ok {negative : Bool} {micros : Binary64} {d : Duration}
    (h : ofSum negative micros = .ok d) :
    ∃ sign units, micros = .finite sign units ∧
      d.micros.natAbs = Binary64.divNearest units Binary64.one := by
  unfold ofSum at h
  split at h
  · cases h
  · rename_i n hn
    split at h
    · cases h
    · rename_i d' hd
      obtain rfl := Except.ok.inj h
      have hmicros := ofMicros?_eq_some_iff.mp hd
      rcases micros with _ | _ | ⟨sign, units⟩
      · cases hn
      · cases hn
      · refine ⟨sign, units, rfl, ?_⟩
        have hn' := Option.some.inj hn
        rw [hmicros, ← hn']
        split <;> split <;> omega

/-- No text is read as a duration whose microseconds take more than 53 binary digits. -/
theorem significant_of_parse {s : String} {d : Duration} (h : parse s = .ok d) :
    Binary64.Significant d.micros.natAbs := by
  unfold parse at h
  dsimp only at h
  split at h
  · obtain rfl := Except.ok.inj h
    exact Binary64.significant_of_le (Nat.zero_le _)
  · split at h
    · cases h
    · obtain ⟨sign, units, hsum, hmicros⟩ := ofSum_eq_ok h
      exact hmicros ▸ (significant_sum hsum).divNearest_one

/-! ## The sum of the parts -/

section

open Binary64

variable {n k : Nat}

/-- The number of a part is read as the nearest number of the format. -/
theorem Part.amount_nearest {p : Part} (hplaces : p.decimals.length ≤ 300)
    (hvalue : p.value < 2 ^ 127) :
    ∃ units, p.amount = .finite false units ∧ Nearest (p.value * one) units :=
  ofDecimal_nearest hplaces hvalue

/-- A whole number of a unit is exact while its digits suffice. -/
theorem Part.micros_ofNat {unit : TimeUnit} (hunit : unit.micros = .finite false (k * one))
    (hn : Significant n) (hnk : Significant (n * k)) (hsmall : n < 2 ^ 64) (hk : k < 2 ^ 63) :
    (Part.ofNat n unit).micros = .finite false (n * k * one) := by
  have hone := cast_one_pos
  have hn' : (n : ℚ) < 2 ^ 64 := by exact_mod_cast hsmall
  have hk' : (k : ℚ) < 2 ^ 63 := by exact_mod_cast hk
  have hvalue : (Part.ofNat n unit).value < 2 ^ 127 := by
    rw [Part.value_ofNat]
    linarith
  obtain ⟨a, hamount, hnear⟩ := Part.amount_nearest (Nat.zero_le _) hvalue
  rw [Part.value_ofNat, ← Nat.cast_mul] at hnear
  rw [hnear.eq_of_significant hn.units] at hamount
  have hproduct : ((n * one : Nat) * k : ℚ) = ((n * k * one : Nat) : ℚ) := by
    rw [Nat.mul_right_comm, Nat.cast_mul (n * one)]
  have hlarge : ((n * one : Nat) * k : ℚ) < 2 ^ 127 * one := by
    have hlt : (n * k : ℚ) < 2 ^ 64 * 2 ^ 63 := mul_lt_mul'' hn' hk' n.cast_nonneg k.cast_nonneg
    rw [hproduct, Nat.cast_mul, Nat.cast_mul]
    refine mul_lt_mul_of_pos_right (hlt.trans_le ?_) hone
    norm_num
  obtain ⟨b, hmul, hnear⟩ := mul_nearest hlarge
  rw [hproduct] at hnear
  rw [hnear.eq_of_significant hnk.units] at hmul
  unfold Part.micros
  rw [hamount, Part.unit_ofNat, hunit]
  exact hmul

/-- A part of few digits in a unit of `k` microseconds that comes to `n` of them. -/
structure Part.Exact (p : Part) (k n : Nat) : Prop where
  unit : p.unit.micros = .finite false (k * one)
  unit_le : k ≤ 2 ^ 20
  places_le : p.decimals.length ≤ 300
  value_lt : p.value < 2 ^ 10
  value_mul : p.value * k = n

/-- Such a part is read as less than a part in four million of a microsecond more or less than
it comes to. -/
theorem Part.Exact.micros_near {p : Part} (h : p.Exact k n) :
    ∃ units, p.micros = .finite false units ∧ |(units : ℚ) - n * one| ≤ one / 2 ^ 22 := by
  have hone := cast_one_pos
  have hvalue := h.value_lt
  have hpos : 0 ≤ p.value := div_nonneg (Nat.cast_nonneg _) (by positivity)
  obtain ⟨a, hamount, hnear⟩ := Part.amount_nearest h.places_le (by linarith)
  have herror := hnear.error_le (mul_nonneg hpos hone.le) (mul_lt_mul_of_pos_right hvalue hone)
  obtain ⟨hscaled, hbound⟩ := Nearest.error_mul hone hvalue k.cast_nonneg
    (by exact_mod_cast h.unit_le) h.value_mul herror
  obtain ⟨units, hmul, hnear⟩ := mul_nearest (hbound.trans (by linarith))
  have herror := hnear.error_le (mul_nonneg a.cast_nonneg k.cast_nonneg) hbound
  refine ⟨units, ?_, ?_⟩
  · unfold Part.micros
    rw [hamount, h.unit]
    exact hmul
  · have htriangle := abs_sub_le (units : ℚ) (a * k) (n * one)
    linarith

theorem Part.exact_ofNat {unit : TimeUnit} (hunit : unit.micros = .finite false (k * one))
    (hk : k ≤ 2 ^ 20) (hn : n < 1000) : (Part.ofNat n unit).Exact k (n * k) where
  unit := by rw [Part.unit_ofNat, hunit]
  unit_le := hk
  places_le := Nat.zero_le _
  value_lt := by
    have hn' : (n : ℚ) < 1000 := by exact_mod_cast hn
    rw [Part.value_ofNat]
    linarith
  value_mul := by rw [Part.value_ofNat, Nat.cast_mul]

/-- A number with as many places as the unit has powers of ten comes to a whole number of
microseconds. -/
theorem Part.exact_decimal {places whole fraction : Nat} {unit : TimeUnit}
    (hunit : unit.micros = .finite false (k * one)) (hk : k ≤ 2 ^ 20) (hplaces : 0 < places)
    (hle : places ≤ 300) (hpow : k = 10 ^ places) (hwhole : whole < 1000) (hfraction : fraction < k) :
    (Part.decimal places whole fraction unit).Exact k (whole * k + fraction) := by
  have hplaced : fraction < 10 ^ places := hpow ▸ hfraction
  have hpos : (0 : ℚ) < 10 ^ places := by positivity
  have hvalue : (Part.decimal places whole fraction unit).value = whole + fraction / 10 ^ places :=
    Part.value_decimal hplaces hplaced
  constructor
  · rw [Part.unit_decimal, hunit]
  · exact hk
  · obtain ⟨zeros, hlength, -⟩ := fractionDigits_spec hplaces hplaced
    rw [Part.decimals_decimal]
    omega
  · have hless : (fraction / 10 ^ places : ℚ) < 1 := by
      rw [div_lt_one hpos]
      exact_mod_cast hplaced
    have hthousand : (whole : ℚ) < 1000 := by exact_mod_cast hwhole
    rw [hvalue]
    linarith
  · rw [hvalue, hpow]
    push_cast
    rw [add_mul, div_mul_cancel₀ _ hpos.ne']

/-- The whole minutes in a number of microseconds. -/
def wholeMinutes (micros : Nat) : Nat :=
  micros / 3600000000 * 3600000000 + micros % 3600000000 / 60000000 * 60000000

theorem wholeMinutes_add (micros : Nat) : wholeMinutes micros + micros % 60000000 = micros := by
  unfold wholeMinutes
  omega

/-- Hours and minutes are multiples of `2 ^ 8`, which are exact up to `2 ^ 61`. -/
theorem significant_minutes (hours minutes : Nat)
    (h : hours * 3600000000 + minutes * 60000000 ≤ 2 ^ 61) :
    Significant (hours * 3600000000 + minutes * 60000000) := by
  have hmultiple : hours * 3600000000 + minutes * 60000000 =
      2 ^ 8 * (hours * 14062500 + minutes * 234375) := by ring
  exact significant_of_dvd (hmultiple ▸ Nat.dvd_mul_right _ _) h

theorem significant_hours {hours : Nat} (h : hours * 3600000000 ≤ 2 ^ 61) :
    Significant (hours * 3600000000) := by
  have hsignificant := significant_minutes hours 0
  rw [Nat.zero_mul, Nat.add_zero] at hsignificant
  exact hsignificant h

/-- Exact sums. -/
theorem add_exact {a b : Nat} (hab : Significant (a + b)) (hsmall : a + b ≤ 2 ^ 61) :
    (finite false (a * one)).add (.finite false (b * one)) = .finite false ((a + b) * one) := by
  have hone := cast_one_pos
  have hsum : ((a * one : Nat) + (b * one : Nat) : ℚ) = (((a + b) * one : Nat) : ℚ) := by
    rw [Nat.add_mul, Nat.cast_add]
  have hlarge : ((a * one : Nat) + (b * one : Nat) : ℚ) < 2 ^ 127 * one := by
    have hle : ((a + b : Nat) : ℚ) ≤ 2 ^ 61 := by exact_mod_cast hsmall
    rw [hsum, Nat.cast_mul]
    refine mul_lt_mul_of_pos_right (hle.trans_lt ?_) hone
    norm_num
  obtain ⟨units, hadd, hnear⟩ := add_nearest hlarge
  rw [hsum] at hnear
  rw [hnear.eq_of_significant hab.units] at hadd
  exact hadd

theorem zero_add_exact (hn : Significant n) (hsmall : n ≤ 2 ^ 61) :
    (finite false 0).add (.finite false (n * one)) = .finite false (n * one) := by
  have hadd := add_exact (a := 0) (b := n) (by rwa [Nat.zero_add]) (by rwa [Nat.zero_add])
  rwa [Nat.zero_mul, Nat.zero_add] at hadd

theorem micros_hour {hours : Nat} (h : hours * 3600000000 ≤ 2 ^ 61) :
    (Part.ofNat hours .hour).micros = .finite false (hours * 3600000000 * one) := by
  have hunit : TimeUnit.hour.micros = .finite false (3600000000 * one) := by decide +kernel
  exact Part.micros_ofNat hunit (significant_of_le (by omega)) (significant_hours h) (by omega)
    (by norm_num)

theorem micros_minute {minutes : Nat} (h : minutes < 60) :
    (Part.ofNat minutes .minute).micros = .finite false (minutes * 60000000 * one) := by
  have hunit : TimeUnit.minute.micros = .finite false (60000000 * one) := by decide +kernel
  exact Part.micros_ofNat hunit (significant_of_le (by omega)) (significant_of_le (by omega))
    (by omega) (by norm_num)

/-- Hours and minutes are exact. -/
theorem sum_spellingBefore {micros : Nat} (h : micros ≤ 2 ^ 61) :
    sum (spellingBefore micros) = .finite false (wholeMinutes micros * one) := by
  unfold spellingBefore wholeMinutes
  dsimp only
  have hbelow : micros % 3600000000 / 60000000 < 60 := by omega
  have htotal : micros / 3600000000 * 3600000000 + micros % 3600000000 / 60000000 * 60000000 ≤
      2 ^ 61 := by omega
  generalize micros / 3600000000 = hours at *
  generalize micros % 3600000000 / 60000000 = minutes at *
  have hhours : hours * 3600000000 ≤ 2 ^ 61 := (Nat.le_add_right _ _).trans htotal
  have hminutes : minutes * 60000000 ≤ 2 ^ 53 :=
    (Nat.mul_le_mul_right _ hbelow.le).trans (by norm_num)
  have hsum (parts : List Part) : sum parts =
      parts.foldl (fun total p => total.add p.micros) (.finite false 0) := rfl
  by_cases hzero : hours = 0
  · by_cases hzero' : minutes = 0
    · simp [hzero, hzero', hsum]
    · rw [if_pos hzero, if_neg fun h => hzero' h.2, List.nil_append, hsum, List.foldl_cons,
        List.foldl_nil, micros_minute hbelow, zero_add_exact (significant_of_le hminutes)
        (hminutes.trans (by norm_num)), hzero, Nat.zero_mul, Nat.zero_add]
  · rw [if_neg hzero, if_neg fun h => hzero h.1, List.singleton_append, hsum, List.foldl_cons,
      List.foldl_cons, List.foldl_nil, micros_hour hhours, micros_minute hbelow,
      zero_add_exact (significant_hours hhours) hhours,
      add_exact (significant_minutes _ _ htotal) htotal]

/-- What is left of the whole minutes is a fraction of a minute, in one part. -/
theorem spellingLast_exact (micros : Nat) :
    ∃ k, (spellingLast micros).Exact k (micros % 60000000) := by
  have hmicros : TimeUnit.microSign.micros = .finite false (1 * one) := by decide +kernel
  have hmillis : TimeUnit.milli.micros = .finite false (1000 * one) := by decide +kernel
  have hseconds : TimeUnit.second.micros = .finite false (1000000 * one) := by decide +kernel
  unfold spellingLast
  split
  · rename_i hzero
    have hexact := Part.exact_ofNat (n := 0) hseconds (by norm_num) (by norm_num)
    rw [Nat.zero_mul] at hexact
    rw [hzero, Nat.zero_mod]
    exact ⟨_, hexact⟩
  · split
    · rename_i hmicro
      have hrest : micros * 1 = micros % 60000000 := by omega
      exact ⟨_, hrest ▸ Part.exact_ofNat hmicros (by norm_num) hmicro⟩
    · split
      · have hrest : micros / 1000 * 1000 + micros % 1000 = micros % 60000000 := by omega
        exact ⟨_, hrest ▸ Part.exact_decimal hmillis (by norm_num) (by norm_num) (by norm_num)
          (by norm_num) (by omega) (by omega)⟩
      · have hrest : micros % 60000000 / 1000000 * 1000000 + micros % 60000000 % 1000000 =
          micros % 60000000 := by omega
        exact ⟨_, hrest ▸ Part.exact_decimal hseconds (by norm_num) (by norm_num) (by norm_num)
          (by norm_num) (by omega) (by omega)⟩

/-- **The sum of the parts is off by less than a half**, up to `2 ^ 61` microseconds and while
53 digits suffice. -/
theorem sum_spelling {micros : Nat} (h : micros ≤ 2 ^ 61) (hsignificant : Significant micros) :
    ∃ units, sum (spelling micros) = .finite false units ∧
      |(units : ℚ) - micros * one| < one / 2 := by
  have hone := cast_one_pos
  obtain ⟨k, hexact⟩ := spellingLast_exact micros
  obtain ⟨last, hlast, herror⟩ := hexact.micros_near
  have hsplit : (micros : ℚ) = wholeMinutes micros + (micros % 60000000 : Nat) := by
    exact_mod_cast (wholeMinutes_add micros).symm
  have hcast : ((wholeMinutes micros * one : Nat) : ℚ) = wholeMinutes micros * one := by
    push_cast
    rfl
  have hmicros : (micros : ℚ) ≤ 2 ^ 61 := by exact_mod_cast h
  have hoff : ((wholeMinutes micros * one : Nat) + last : ℚ) - (micros * one : Nat) =
      last - (micros % 60000000 : Nat) * one := by
    rw [hcast, Nat.cast_mul, hsplit]
    ring
  have hlarge : ((wholeMinutes micros * one : Nat) + last : ℚ) < 2 ^ 127 * one := by
    have hhigh := (abs_le.mp herror).2
    have hscaled := mul_le_mul_of_nonneg_right hmicros hone.le
    rw [← hoff, Nat.cast_mul micros] at hhigh
    linarith
  obtain ⟨units, hadd, hnear⟩ := add_nearest hlarge
  have hbound := hnear.off_le hsignificant.units
  rw [hoff, Nat.cast_mul micros] at hbound
  refine ⟨units, ?_, by linarith⟩
  unfold spelling
  rw [sum_append, sum_spellingBefore h, hlast, hadd]

end

end AppSynthesis.Duration

namespace AppSynthesis

/-! ## Reading what was written -/

theorem Duration.parse_text_of_significant {d : Duration} (h : d.micros.natAbs ≤ 2 ^ 61)
    (hsignificant : Binary64.Significant d.micros.natAbs) : Duration.parse d.text = .ok d := by
  obtain ⟨units, hsum, hnear⟩ := Duration.sum_spelling h hsignificant
  have hsign : (if decide (d.micros < 0) = true then -(d.micros.natAbs : Int)
      else (d.micros.natAbs : Int)) = d.micros := by
    simp only [decide_eq_true_eq]
    split <;> omega
  rw [Duration.parse_text, hsum, Duration.ofSum]
  simp only [Binary64.nearestInt?_of_near hnear, hsign, Duration.ofMicros?_eq_some_iff.mpr rfl]

/-- **Which durations are read again from their written form.** Up to `2 ^ 53` microseconds,
which is more than 285 years, all are. Beyond that what is read takes 53 binary digits and no
more, so a duration that takes more is read as another one or not at all; up to `2 ^ 61`
microseconds there is no other reason for it. -/
theorem parseDuration_text (d : Duration) :
    (d.micros.natAbs ≤ 2 ^ 53 → parseDuration (.str d.text) = .ok (some d)) ∧
    (d.micros.natAbs ≤ 2 ^ 61 → Binary64.Significant d.micros.natAbs →
      parseDuration (.str d.text) = .ok (some d)) ∧
    (parseDuration (.str d.text) = .ok (some d) → Binary64.Significant d.micros.natAbs) := by
  have hread (h : d.micros.natAbs ≤ 2 ^ 61) (hsignificant : Binary64.Significant d.micros.natAbs) :
      parseDuration (.str d.text) = .ok (some d) :=
    parseDuration_str_eq_ok.mpr (Duration.parse_text_of_significant h hsignificant)
  refine ⟨fun h => ?_, hread, fun h => ?_⟩
  · exact hread (h.trans (by norm_num)) (Binary64.significant_of_le h)
  · exact Duration.significant_of_parse (parseDuration_str_eq_ok.mp h)

/-- The longest negative duration of 53 digits, and a length of time eight digits beyond. -/
theorem parseDuration_text_long :
    ∃ d e : Duration, d.text = "-2501999h47m34.740991s" ∧
      e.text = "640511947h0m13.693696s" ∧
      parseDuration (.str d.text) = .ok (some d) ∧ parseDuration (.str e.text) = .ok (some e) := by
  let d : Duration := ⟨-(2 ^ 53 - 1), by decide, by decide⟩
  let e : Duration := ⟨2 ^ 61 - 2 ^ 8, by decide, by decide⟩
  have he : Binary64.Significant e.micros.natAbs := ⟨2 ^ 53 - 1, 8, by decide, by decide⟩
  exact ⟨d, e, by decide +kernel, by decide +kernel, (parseDuration_text d).1 (by decide),
    (parseDuration_text e).2.1 (by decide) he⟩

/-- One microsecond more than 53 digits hold is lost. -/
theorem parseDuration_text_lossy :
    ∃ d e : Duration, d.text = "2501999h47m34.740993s" ∧ e.micros = d.micros - 1 ∧
      parseDuration (.str d.text) = .ok (some e) ∧ parseDuration (.str d.text) ≠ .ok (some d) := by
  let d : Duration := ⟨2 ^ 53 + 1, by decide, by decide⟩
  let e : Duration := ⟨2 ^ 53, by decide, by decide⟩
  have hread : (Duration.parse d.text).toOption = some e := by decide +kernel
  have hother : parseDuration (.str d.text) = .ok (some e) :=
    parseDuration_str_eq_ok.mpr (toOption_eq_some.mp hread)
  refine ⟨d, e, by decide +kernel, rfl, hother, ?_⟩
  rw [hother]
  decide

end AppSynthesis
