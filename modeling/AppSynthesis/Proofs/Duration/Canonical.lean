/-
AppSynthesis.Proofs.Duration.Canonical — the written form of a duration is exact.

* `Duration.TimeUnit.worth`, `Duration.Part.worth` — the microseconds of a unit and of a part,
  without any rounding.
* `Duration.Canonical` — parts as durations are written in: the units from the largest on,
  fractions that end in no zero, and less than sixty minutes or seconds after a larger unit.
* `Duration.canonical_spelling`, `Duration.worth_spelling` — the parts that a number of
  microseconds is written as are so, and come to that number.
* `Duration.text_canonical` — so the written form of a duration is a text of the grammar that
  denotes it exactly, and no other duration has the same.

The parts were worked out for reading in floating point (`Duration.spelling`); here they are
added up as fractions. What they come to does not depend on how large the duration is.
-/
import Mathlib.Algebra.BigOperators.Group.List.Basic
import AppSynthesis.Proofs.Duration.RoundTrip

namespace AppSynthesis.Duration

/-! ## What parts are worth -/

/-- The microseconds of a unit. -/
def TimeUnit.worth : TimeUnit → ℚ
  | .hour => 3600000000
  | .minute => 60000000
  | .second => 1000000
  | .milli => 1000
  | .micro => 1
  | .microSign => 1
  | .nano => 1 / 1000

/-- The microseconds of a part. -/
def Part.worth (p : Part) : ℚ := p.value * p.unit.worth

theorem Part.worth_ofNat (n : Nat) (unit : TimeUnit) : (ofNat n unit).worth = n * unit.worth := by
  rw [worth, value_ofNat, unit_ofNat]

/-- With as many places as the unit has powers of ten the fraction counts microseconds. -/
theorem Part.worth_decimal {places whole fraction : Nat} {unit : TimeUnit} (hplaces : 0 < places)
    (hfraction : fraction < 10 ^ places) (hunit : unit.worth = 10 ^ places) :
    (decimal places whole fraction unit).worth = ((whole * 10 ^ places + fraction : Nat) : ℚ) := by
  have hpos : (10 : ℚ) ^ places ≠ 0 := by positivity
  rw [worth, value_decimal hplaces hfraction, unit_decimal, hunit, add_mul,
    div_mul_cancel₀ _ hpos]
  push_cast
  rfl

theorem worth_spellingBefore (micros : Nat) :
    ((spellingBefore micros).map Part.worth).sum = (wholeMinutes micros : ℚ) := by
  unfold spellingBefore wholeMinutes
  dsimp only
  generalize micros / 3600000000 = hours
  generalize micros % 3600000000 / 60000000 = minutes
  by_cases hzero : hours = 0
  · by_cases hzero' : minutes = 0
    · simp [hzero, hzero']
    · simp [hzero, hzero', Part.worth_ofNat, TimeUnit.worth]
  · simp [hzero, Part.worth_ofNat, TimeUnit.worth]

theorem worth_spellingLast (micros : Nat) :
    (spellingLast micros).worth = ((micros % 60000000 : Nat) : ℚ) := by
  have hmilli : TimeUnit.milli.worth = 10 ^ 3 := by norm_num [TimeUnit.worth]
  have hsecond : TimeUnit.second.worth = 10 ^ 6 := by norm_num [TimeUnit.worth]
  unfold spellingLast
  by_cases hzero : micros = 0
  · simp [hzero, Part.worth_ofNat]
  · rw [if_neg hzero]
    by_cases hmicro : micros < 1000
    · rw [if_pos hmicro, Part.worth_ofNat, TimeUnit.worth, mul_one,
        Nat.mod_eq_of_lt (by omega)]
    · rw [if_neg hmicro]
      by_cases hmilli' : micros < 1000000
      · rw [if_pos hmilli', Part.worth_decimal (by decide) (by omega) hmilli]
        congr 1
        omega
      · rw [if_neg hmilli', Part.worth_decimal (by decide) (by omega) hsecond]
        congr 1
        omega

/-- **The parts come to the number that is written.** -/
theorem worth_spelling (micros : Nat) : ((spelling micros).map Part.worth).sum = micros := by
  unfold spelling
  rw [List.map_append, List.sum_append, worth_spellingBefore, List.map_singleton,
    List.sum_singleton, worth_spellingLast]
  exact_mod_cast wholeMinutes_add micros

/-! ## The form of the parts -/

/-- Parts as durations are written in. -/
structure Canonical (parts : List Part) : Prop where
  ne_nil : parts ≠ []
  valid : ∀ p ∈ parts, p.Valid
  /-- Hours, minutes and seconds come in this order, once each at most; smaller units stand by
  themselves. -/
  units : (parts.map (·.unit)).Sublist [.hour, .minute, .second] ∨
    parts.map (·.unit) = [.milli] ∨ parts.map (·.unit) = [.microSign]
  /-- What comes before the point is a numeral. -/
  whole : ∀ p ∈ parts, ∃ n, p.whole = Nat.toDigits 10 n
  /-- A point is followed by digits, and the last of them is not zero. -/
  fraction : ∀ p ∈ parts, ∀ digits ∈ p.fraction, ∃ c ∈ digits.getLast?, c ≠ '0'
  /-- After a larger unit there are less than sixty minutes and less than sixty seconds. -/
  below : ∀ p ∈ parts.tail, p.value < 60

variable {micros : Nat}

/-- No zero is left at the end of a fraction. -/
theorem getLast?_fractionDigits {places fraction : Nat} {c : Char}
    (h : (fractionDigits places fraction).getLast? = some c) : c ≠ '0' := by
  unfold fractionDigits at h
  rw [List.getLast?_reverse] at h
  simpa using Text.first_dropWhile h

theorem units_spelling (micros : Nat) :
    ((spelling micros).map (·.unit)).Sublist [.hour, .minute, .second] ∨
      (spelling micros).map (·.unit) = [.milli] ∨
      (spelling micros).map (·.unit) = [.microSign] := by
  unfold spelling
  rw [List.map_append, List.map_singleton]
  by_cases hsmall : micros < 1000000 ∧ micros ≠ 0
  · rw [spellingBefore_of_lt (by omega), List.map_nil, List.nil_append]
    unfold spellingLast
    rw [if_neg hsmall.2, if_pos hsmall.1]
    split
    · exact Or.inr (Or.inr rfl)
    · exact Or.inr (Or.inl rfl)
  · have hlast : (spellingLast micros).unit = .second := by
      unfold spellingLast
      split
      · rfl
      · rw [if_neg (by omega), if_neg (by omega)]
        rfl
    have hbefore : ((spellingBefore micros).map (·.unit)).Sublist [.hour, .minute] := by
      unfold spellingBefore
      dsimp only
      split <;> split <;> simp
    rw [hlast]
    exact Or.inl (hbefore.append (List.Sublist.refl [TimeUnit.second]))

theorem fraction_spelling {p : Part} (h : p ∈ spelling micros) :
    ∀ digits ∈ p.fraction, ∃ c ∈ digits.getLast?, c ≠ '0' := by
  rcases spelling_cases h with ⟨n, unit, rfl⟩ | ⟨places, whole, fraction, unit, rfl⟩
  · exact nofun
  · intro digits hdigits
    unfold Part.decimal at hdigits
    dsimp only at hdigits
    split at hdigits
    · cases hdigits
    · rename_i hempty
      obtain rfl := Option.some.inj hdigits
      have hne : fractionDigits places fraction ≠ [] := fun h => hempty (List.isEmpty_iff.mpr h)
      have hlast := List.getLast?_eq_some_getLast hne
      exact ⟨_, hlast, getLast?_fractionDigits hlast⟩

/-- The last part of a duration of a minute or more is seconds, less than sixty. -/
theorem value_spellingLast (h : 1000000 ≤ micros) : (spellingLast micros).value < 60 := by
  have hrest : micros % 60000000 % 1000000 < 10 ^ 6 := Nat.mod_lt _ (by decide)
  have htotal : micros % 60000000 / 1000000 * 10 ^ 6 + micros % 60000000 % 1000000 <
      60 * 10 ^ 6 := by omega
  have htotal' : ((micros % 60000000 / 1000000 : Nat) : ℚ) * 10 ^ 6 +
      (micros % 60000000 % 1000000 : Nat) < 60 * 10 ^ 6 := by exact_mod_cast htotal
  unfold spellingLast
  rw [if_neg (by omega), if_neg (by omega), if_neg (by omega),
    Part.value_decimal (by decide) hrest]
  linarith

theorem below_spelling {p : Part} (h : p ∈ (spelling micros).tail) : p.value < 60 := by
  have hminutes : micros % 3600000000 / 60000000 < 60 := by omega
  have hlast (hlarge : 60000000 ≤ micros) : (spellingLast micros).value < 60 :=
    value_spellingLast (by omega)
  by_cases hsmall : micros < 60000000
  · rw [spelling, spellingBefore_of_lt hsmall] at h
    cases h
  · unfold spelling spellingBefore at h
    dsimp only at h
    split at h
    · split at h
      · cases h
      · obtain rfl := List.mem_singleton.mp h
        exact hlast (by omega)
    · rename_i hhours
      rw [if_neg fun hzero => hhours hzero.1] at h
      rcases List.mem_pair.mp h with rfl | rfl
      · rw [Part.value_ofNat]
        exact_mod_cast hminutes
      · exact hlast (by omega)

/-- **Durations are written in canonical parts.** -/
theorem canonical_spelling (micros : Nat) : Canonical (spelling micros) where
  ne_nil := spelling_ne_nil micros
  valid _ := valid_spelling
  units := units_spelling micros
  whole _ := whole_spelling
  fraction _ := fraction_spelling
  below _ := below_spelling

/-! ## Durations told by their text -/

theorem grammar_text (d : Duration) : Grammar d.text := by
  by_contra hout
  have hmalformed := parse_eq_malformed_iff.mpr hout
  rw [parse_text] at hmalformed
  exact ofSum_ne_malformed _ _ hmalformed

theorem spelling_inj {m n : Nat}
    (h : (spelling m).flatMap Part.written = (spelling n).flatMap Part.written) : m = n := by
  have hparts := (written_inj (fun _ => valid_spelling) fun _ => valid_spelling).mp h
  have hworth : (m : ℚ) = n := by rw [← worth_spelling m, ← worth_spelling n, hparts]
  exact_mod_cast hworth

/-- The parts begin with a digit, so the sign cannot be taken for one of theirs. -/
theorem text_inj {d e : Duration} (h : d.text = e.text) : d = e := by
  have hchars := congrArg String.toList h
  rw [text_toList, text_toList] at hchars
  have hnosign (n : Nat) (cs : List Char) : (spelling n).flatMap Part.written ≠ '-' :: cs := by
    obtain ⟨c, tail, hfirst, hdigit⟩ := spelling_first n
    rw [hfirst]
    rintro ⟨⟩
    exact absurd hdigit (by decide)
  have hmicros : d.micros = e.micros := by
    by_cases hd : d.micros < 0 <;> by_cases he : e.micros < 0
    · rw [if_pos hd, if_pos he] at hchars
      have := spelling_inj (List.append_cancel_left hchars)
      omega
    · rw [if_pos hd, if_neg he] at hchars
      exact absurd hchars.symm (hnosign _ _)
    · rw [if_neg hd, if_pos he] at hchars
      exact absurd hchars (hnosign _ _)
    · rw [if_neg hd, if_neg he] at hchars
      have := spelling_inj (List.append_cancel_left hchars)
      omega
  cases d
  cases e
  cases hmicros
  rfl

/-- **The written form of a duration is exact.** It is a sign, if the duration is negative, and
canonical parts that come to its length without any rounding. It is in the grammar of durations,
and no other duration is written so. -/
theorem text_canonical (d : Duration) :
    ∃ parts : List Part,
      d.text.toList = (if d.micros < 0 then ['-'] else []) ++ parts.flatMap Part.written ∧
      Canonical parts ∧
      (if d.micros < 0 then -1 else 1) * (parts.map Part.worth).sum = (d.micros : ℚ) ∧
      Grammar d.text ∧
      ∀ e : Duration, e.text = d.text → e = d := by
  refine ⟨spelling d.micros.natAbs, text_toList d, canonical_spelling _, ?_, grammar_text d,
    fun e => text_inj⟩
  rw [worth_spelling, ← Int.cast_natCast]
  by_cases hneg : d.micros < 0
  · have habs : -1 * (d.micros.natAbs : ℤ) = d.micros := by omega
    rw [if_pos hneg]
    exact_mod_cast habs
  · have habs : 1 * (d.micros.natAbs : ℤ) = d.micros := by omega
    rw [if_neg hneg]
    exact_mod_cast habs

end AppSynthesis.Duration
