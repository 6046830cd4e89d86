/-
AppSynthesis.Proofs.Duration.Spelling — the parts that durations are written as.

* `Duration.Part.ofNat`, `Duration.Part.decimal` — the part of a whole number, and that of a
  number with a fraction, which ends in no zero.
* `Duration.Part.value` — the number of a part, exactly.
* `Duration.spelling` — the parts that a duration is written as.
* `Duration.text_toList` — the written form is their spelling behind its sign.

The zeros that end a fraction are left out of its digits, which changes neither its value nor
what it is a fraction of (`Duration.exists_zeros`): the digits count for less, and there are
fewer of them.
-/
import Mathlib.Data.Rat.Cast.Order
import Mathlib.Tactic.FieldSimp
import AppSynthesis.Proofs.Duration.Parts
import AppSynthesis.Proofs.Text.Digit

namespace AppSynthesis.Duration

/-! ## Fractions -/

/-- The digits of a fraction in units of `10 ^ -places`, without the zeros at its end. -/
def fractionDigits (places fraction : Nat) : List Char :=
  let digits := Nat.toDigits 10 fraction
  let padded := List.replicate (places - digits.length) '0' ++ digits
  (padded.reverse.dropWhile (· = '0')).reverse

/-- What is left out at the end are zeros. -/
theorem exists_zeros (cs : List Char) :
    ∃ k, cs = (cs.reverse.dropWhile (· = '0')).reverse ++ List.replicate k '0' := by
  refine ⟨(cs.reverse.takeWhile (· = '0')).length, ?_⟩
  have hzeros : cs.reverse.takeWhile (· = '0') =
      List.replicate (cs.reverse.takeWhile (· = '0')).length '0' :=
    List.eq_replicate_of_mem fun c hc => by
      simpa using List.all_eq_true.mp (List.all_takeWhile (p := (· = '0'))) c hc
  rw [← List.reverse_replicate, ← hzeros, ← List.reverse_append,
    List.takeWhile_append_dropWhile, List.reverse_reverse]

variable {places fraction : Nat}

theorem isDigit_of_mem_fractionDigits {c : Char} (h : c ∈ fractionDigits places fraction) :
    Text.isDigit c = true := by
  unfold fractionDigits at h
  have hmem := (List.dropWhile_suffix _).mem (List.mem_reverse.mp h)
  rw [List.mem_reverse, List.mem_append] at hmem
  rcases hmem with hzero | hdigit
  · rw [(List.mem_replicate.mp hzero).2]
    decide
  · exact Text.isDigit_of_mem_toDigits hdigit

/-- With the zeros again, the digits of a fraction are as many as there are places, and denote
the fraction. -/
theorem fractionDigits_spec (hplaces : 0 < places) (h : fraction < 10 ^ places) :
    ∃ k, (fractionDigits places fraction).length + k = places ∧
      Text.naturalOf (fractionDigits places fraction) * 10 ^ k = fraction := by
  have hlength := (Nat.length_toDigits_le_iff (by decide) hplaces).mpr h
  obtain ⟨k, hk⟩ := exists_zeros
    (List.replicate (places - (Nat.toDigits 10 fraction).length) '0' ++ Nat.toDigits 10 fraction)
  refine ⟨k, ?_, ?_⟩
  · have hcount := congrArg List.length hk
    simp only [List.length_append, List.length_replicate] at hcount
    unfold fractionDigits
    dsimp only
    omega
  · have hvalue := congrArg Text.naturalOf hk
    simp only [Text.naturalOf_append, Text.naturalOf_zeros, Text.naturalOf_toDigits,
      List.length_replicate, Nat.zero_mul, Nat.zero_add, Nat.add_zero] at hvalue
    exact hvalue.symm

/-! ## Parts -/

namespace Part

/-- The part of a whole number. -/
def ofNat (n : Nat) (unit : TimeUnit) : Part := ⟨Nat.toDigits 10 n, none, unit⟩

/-- The part of a whole number with a fraction in units of `10 ^ -places`. -/
def decimal (places whole fraction : Nat) (unit : TimeUnit) : Part :=
  let digits := fractionDigits places fraction
  ⟨Nat.toDigits 10 whole, if digits.isEmpty then none else some digits, unit⟩

/-- The digits after the point. -/
def decimals (p : Part) : List Char := p.fraction.getD []

/-- The number of a part, exactly. -/
def value (p : Part) : ℚ := Text.naturalOf (p.whole ++ p.decimals) / 10 ^ p.decimals.length

variable {n whole : Nat} {unit : TimeUnit}

@[simp] theorem unit_ofNat : (ofNat n unit).unit = unit := rfl

@[simp] theorem unit_decimal : (decimal places whole fraction unit).unit = unit := rfl

theorem valid_ofNat : (ofNat n unit).Valid where
  whole _ := Text.isDigit_of_mem_toDigits
  fraction _ h := by cases h
  digits := Or.inl Nat.toDigits_ne_nil

theorem valid_decimal : (decimal places whole fraction unit).Valid where
  whole _ := Text.isDigit_of_mem_toDigits
  fraction digits h c hc := by
    unfold decimal at h
    dsimp only at h
    split at h
    · cases h
    · obtain rfl := Option.some.inj h
      exact isDigit_of_mem_fractionDigits hc
  digits := Or.inl Nat.toDigits_ne_nil

theorem decimals_decimal :
    (decimal places whole fraction unit).decimals = fractionDigits places fraction := by
  unfold decimal decimals
  dsimp only
  split
  · rename_i h
    exact (List.isEmpty_iff.mp h).symm
  · rfl

theorem value_ofNat : (ofNat n unit).value = n := by
  simp [value, ofNat, decimals, Text.naturalOf_toDigits]

theorem value_decimal (hplaces : 0 < places) (h : fraction < 10 ^ places) :
    (decimal places whole fraction unit).value = whole + fraction / 10 ^ places := by
  obtain ⟨k, hlength, hvalue⟩ := fractionDigits_spec hplaces h
  have hwhole : (decimal places whole fraction unit).whole = Nat.toDigits 10 whole := rfl
  unfold value
  rw [decimals_decimal, hwhole, Text.naturalOf_append, Text.naturalOf_toDigits]
  set digits := fractionDigits places fraction
  have hpow : (10 : ℚ) ^ places = 10 ^ digits.length * 10 ^ k := by rw [← hlength, pow_add]
  have hfraction : (fraction : ℚ) = Text.naturalOf digits * 10 ^ k := by exact_mod_cast hvalue.symm
  rw [hpow, hfraction]
  push_cast
  field_simp

/-- The part is spelled as the number that is written, with its unit. -/
theorem written_decimal : (decimal places whole fraction unit).written =
    (Duration.decimal places whole fraction).toList ++ unit.written := by
  unfold decimal Duration.decimal written Numeral.ofNat
  dsimp only
  rw [show (List.dropWhile _ _).reverse = fractionDigits places fraction from rfl]
  split <;> simp [fractionWritten]

end Part

/-! ## Durations -/

/-- The parts that come before the seconds: hours, and minutes after hours or by themselves. -/
def spellingBefore (micros : Nat) : List Part :=
  let hours := micros / 3600000000
  let minutes := micros % 3600000000 / 60000000
  (if hours = 0 then [] else [.ofNat hours .hour])
    ++ (if hours = 0 ∧ minutes = 0 then [] else [.ofNat minutes .minute])

/-- The last part. -/
def spellingLast (micros : Nat) : Part :=
  if micros = 0 then .ofNat 0 .second
  else if micros < 1000 then .ofNat micros .microSign
  else if micros < 1000000 then .decimal 3 (micros / 1000) (micros % 1000) .milli
  else .decimal 6 (micros % 60000000 / 1000000) (micros % 60000000 % 1000000) .second

/-- The parts that a number of microseconds is written as. -/
def spelling (micros : Nat) : List Part := spellingBefore micros ++ [spellingLast micros]

theorem spellingBefore_of_lt {micros : Nat} (h : micros < 60000000) : spellingBefore micros = [] := by
  have hhours : micros / 3600000000 = 0 := by omega
  have hminutes : micros % 3600000000 / 60000000 = 0 := by omega
  simp [spellingBefore, hhours, hminutes]

/-- What a part was written from. -/
theorem spelling_cases {micros : Nat} {p : Part} (h : p ∈ spelling micros) :
    (∃ n unit, p = .ofNat n unit) ∨
      ∃ places whole fraction unit, p = .decimal places whole fraction unit := by
  have hoptional : ∀ {q : Part} {c : Prop} [Decidable c], (p ∈ if c then [] else [q]) → p = q := by
    intro q c _ hmem
    split at hmem
    · cases hmem
    · exact List.mem_singleton.mp hmem
  rcases List.mem_append.mp h with hbefore | hlast
  · rcases List.mem_append.mp hbefore with hmem | hmem
    · exact Or.inl ⟨_, _, hoptional hmem⟩
    · exact Or.inl ⟨_, _, hoptional hmem⟩
  · rw [List.mem_singleton.mp hlast]
    unfold spellingLast
    split
    · exact Or.inl ⟨_, _, rfl⟩
    · split
      · exact Or.inl ⟨_, _, rfl⟩
      · split <;> exact Or.inr ⟨_, _, _, _, rfl⟩

theorem spelling_ne_nil (micros : Nat) : spelling micros ≠ [] :=
  List.append_ne_nil_of_right_ne_nil _ (List.cons_ne_nil _ _)

theorem valid_spelling {micros : Nat} {p : Part} (h : p ∈ spelling micros) : p.Valid := by
  rcases spelling_cases h with ⟨n, unit, rfl⟩ | ⟨places, whole, fraction, unit, rfl⟩
  · exact Part.valid_ofNat
  · exact Part.valid_decimal

/-- A part begins with a numeral. -/
theorem whole_spelling {micros : Nat} {p : Part} (h : p ∈ spelling micros) :
    ∃ n, p.whole = Nat.toDigits 10 n := by
  rcases spelling_cases h with ⟨n, unit, rfl⟩ | ⟨places, whole, fraction, unit, rfl⟩
  · exact ⟨n, rfl⟩
  · exact ⟨whole, rfl⟩

/-- The written form of a number of microseconds is the spelling of its parts. -/
theorem magnitudeText_toList (micros : Nat) :
    (magnitudeText micros).toList = (spelling micros).flatMap Part.written := by
  unfold magnitudeText spelling
  rw [List.flatMap_append, List.flatMap_singleton]
  by_cases hzero : micros = 0
  · subst hzero
    rfl
  · by_cases hmicro : micros < 1000
    · rw [spellingBefore_of_lt (by omega)]
      simp [spellingLast, hzero, hmicro, Part.written, Part.ofNat, fractionWritten,
        TimeUnit.written, Numeral.ofNat]
    · by_cases hmilli : micros < 1000000
      · rw [spellingBefore_of_lt (by omega)]
        simp [spellingLast, hzero, hmicro, hmilli, Part.written_decimal, TimeUnit.written]
      · simp only [spellingLast, spellingBefore, if_neg hzero, if_neg hmicro, if_neg hmilli,
          Part.written_decimal, List.flatMap_append]
        split <;> split <;>
          simp [Part.written, Part.ofNat, fractionWritten, TimeUnit.written, Numeral.ofNat]

/-- The written form of a duration is the spelling of its parts behind its sign. -/
theorem text_toList (d : Duration) : d.text.toList =
    (if d.micros < 0 then ['-'] else []) ++ (spelling d.micros.natAbs).flatMap Part.written := by
  unfold text
  rw [String.toList_append, magnitudeText_toList]
  split <;> rfl

end AppSynthesis.Duration
