/-
AppSynthesis.Proofs.Value.Identity — when two atomic values are the same.

`Value.same` compares truth values, integers and floating-point numbers as
numbers, and timestamps by what they name. On the values that can be part of
an identity this comes down to equality of a normal form:

* `Value.Identity`, `Value.identity?` — what an atomic value is told apart
  by. Only what is not a number has none: it is the same as nothing.
* `Value.same_iff` — two atomic values are the same exactly when they have
  the same identity.
* `Value.agrees_iff` — inside something else they agree exactly when neither
  is told apart from the other, which is an equivalence.
* `ResourceId.same_self`, `ResourceId.same_symm`, `ResourceId.same_trans` — the
  same for the identities of resources.

Text is the same as equal text only (`Value.same_str`, `Value.agrees_str`),
whatever the other value is; nothing about atoms is needed for that.
-/
import AppSynthesis.Manifest.Resource

namespace AppSynthesis

/-! ## Text -/

@[simp] theorem Value.same_str {v : Value} {s : String} : v.same (.str s) = true ↔ v = .str s := by
  cases v <;> simp [Value.same]

@[simp] theorem Value.str_same {v : Value} {s : String} :
    (Value.str s).same v = true ↔ v = .str s := by
  cases v <;> simp [Value.same]
  exact eq_comm

theorem Value.same_of_isText {v w : Value} (h : v.isText = true) : v.same w = true ↔ v = w := by
  cases v <;> simp [Value.isText] at h
  rw [Value.str_same, eq_comm]

/-- Nothing but null is the same as null. -/
theorem Value.same_null {v : Value} : v.same .null = true ↔ v = .null := by
  cases v <;> simp [Value.same]

theorem Value.null_same {v : Value} : Value.null.same v = true ↔ v = .null := by
  cases v <;> simp [Value.same]

@[simp] theorem Value.agrees_str {v : Value} {s : String} :
    v.agrees (.str s) = true ↔ v = .str s := by
  simp [Value.agrees, Value.isNaN]

@[simp] theorem Value.str_agrees {v : Value} {s : String} :
    (Value.str s).agrees v = true ↔ v = .str s := by
  simp [Value.agrees, Value.isNaN]

theorem Value.exists_str : ∀ {k : Value}, k.isText = true → ∃ s, k = .str s
  | .str s, _ => ⟨s, rfl⟩

theorem Value.agrees_of_isText {v w : Value} (h : v.isText = true) :
    v.agrees w = true ↔ v = w := by
  cases v <;> simp [Value.isText] at h
  rw [Value.str_agrees, eq_comm]

/-! ## Numbers and timestamps -/

theorem Numeral.ofNat_inj {m n : Nat} : Numeral.ofNat m = Numeral.ofNat n ↔ m = n := by
  refine ⟨fun h => ?_, fun h => h ▸ rfl⟩
  have hdigits : Nat.toDigits 10 m = Nat.toDigits 10 n := String.ofList_injective h
  rw [← Nat.ofDigitChars_toDigits (n := m) (by decide) (Nat.le_refl 10), hdigits,
    Nat.ofDigitChars_toDigits (by decide) (Nat.le_refl 10)]

/-- What a timestamp is told apart by: a day, a reading of a clock, or an
instant. -/
inductive Timestamp.Moment where
  | day (t : Timestamp)
  | reading (micros : Nat)
  | instant (micros : Int)

/-- The moment that a timestamp names. -/
def Timestamp.moment (t : Timestamp) : Timestamp.Moment :=
  match t.clock with
  | none => .day t
  | some c =>
    match c.offset with
    | none => .reading (t.localMicros c)
    | some o => .instant ((t.localMicros c : Int) - o * 60000000)

theorem Timestamp.same_iff (a b : Timestamp) : a.same b = true ↔ a.moment = b.moment := by
  unfold Timestamp.same Timestamp.moment
  rcases ha : a.clock with _ | c <;> rcases hb : b.clock with _ | d
  · simp
  · rcases hd : d.offset with _ | p <;> simp [hd]
  · rcases hc : c.offset with _ | o <;> simp [hc]
  · rcases hc : c.offset with _ | o <;> rcases hd : d.offset with _ | p <;> simp [hc, hd]

theorem Binary64.one_pos : 0 < one := by decide +kernel

theorem Binary64.one_ne_zero : (one : Int) ≠ 0 := Int.natCast_ne_zero.mpr (Nat.ne_of_gt one_pos)

/-- The units of an integer. -/
def Binary64.whole (n : Int) : Int := n * (one : Int)

/-- Integers are told apart by their units. -/
theorem Binary64.whole_inj {n m : Int} : whole n = whole m ↔ n = m :=
  Int.mul_eq_mul_right_iff one_ne_zero

/-- Numbers of one sign are told apart by their units too. -/
theorem Binary64.signedUnits_inj {s : Bool} {a b : Nat} :
    signedUnits s a = signedUnits s b ↔ a = b := by
  unfold signedUnits
  cases s <;> simp only [Bool.false_eq_true, if_false, if_true] <;> omega

theorem Binary64.sameInt_iff {s : Bool} {a : Nat} {n : Int} :
    (finite s a).sameInt n = true ↔ signedUnits s a = whole n :=
  beq_iff_eq

theorem Binary64.sameInt_nan {n : Int} : nan.sameInt n = false := rfl

theorem Binary64.sameInt_infinite {s : Bool} {n : Int} : (infinite s).sameInt n = false := rfl

theorem Value.ofTruth_inj {a b : Bool} : ofTruth a = ofTruth b ↔ a = b := by
  cases a <;> cases b <;> decide

/-! ## Atomic values -/

/-- What an atomic value is told apart by. Numbers are counted in the units
of `Binary64`. -/
inductive Value.Identity where
  | null
  | number (units : Int)
  | infinite (negative : Bool)
  | text (s : String)
  | moment (m : Timestamp.Moment)

/-- The identity of an atomic value. What is not a number has none, and
collections have none either. -/
def Value.identity? : Value → Option Value.Identity
  | .null => some .null
  | .bool b => some (.number (Binary64.whole (ofTruth b)))
  | .int n => some (.number (Binary64.whole n))
  | .float .nan => none
  | .float (.infinite s) => some (.infinite s)
  | .float (.finite s a) => some (.number (Binary64.signedUnits s a))
  | .str s => some (.text s)
  | .stamp _ t => some (.moment t.moment)
  | .list _ _ => none
  | .map _ _ => none

/-- Two atomic values are the same exactly when they have the same identity. -/
theorem Value.same_iff {v w : Value} (hv : v.isAtomic = true) (hw : w.isAtomic = true) :
    v.same w = true ↔ v.identity?.isSome ∧ v.identity? = w.identity? := by
  rcases v with _ | _ | _ | (_ | _ | _) | _ | _ | _ | _ <;>
    rcases w with _ | _ | _ | (_ | _ | _) | _ | _ | _ | _ <;>
    simp [Value.isAtomic] at hv hw <;>
    simp [Value.same, Value.identity?, Binary64.sameNumber, Binary64.sameInt_iff,
      Binary64.sameInt_nan, Binary64.sameInt_infinite, Timestamp.same_iff, Binary64.whole_inj,
      Value.ofTruth_inj]
  -- An integer and a number of the format are compared the other way round.
  all_goals exact eq_comm

/-- What is not a number is the only atomic value without an identity. -/
theorem Value.isNaN_iff {v : Value} (hv : v.isAtomic = true) :
    v.isNaN = true ↔ v.identity? = none := by
  rcases v with _ | _ | _ | (_ | _ | _) | _ | _ | _ | _ <;>
    simp [Value.isAtomic] at hv <;> simp [Value.isNaN, Value.identity?]

/-- Two atomic values agree exactly when they are told apart by the same. -/
theorem Value.agrees_iff {v w : Value} (hv : v.isAtomic = true) (hw : w.isAtomic = true) :
    v.agrees w = true ↔ v.identity? = w.identity? := by
  unfold Value.agrees
  rw [Bool.or_eq_true, Bool.and_eq_true, same_iff hv hw, isNaN_iff hv, isNaN_iff hw]
  rcases v.identity? with _ | i
  · simpa using eq_comm
  · simp

section

variable {v w u : Value}

theorem Value.agrees_congr (hv : v.isAtomic = true) (hw : w.isAtomic = true)
    (hu : u.isAtomic = true) (h : v.agrees w = true) : v.agrees u = w.agrees u := by
  rw [Bool.eq_iff_iff, agrees_iff hv hu, agrees_iff hw hu, (agrees_iff hv hw).mp h]

theorem Value.same_congr (hv : v.isAtomic = true) (hw : w.isAtomic = true) (hu : u.isAtomic = true)
    (h : v.agrees w = true) : v.same u = w.same u := by
  rw [Bool.eq_iff_iff, same_iff hv hu, same_iff hw hu, (agrees_iff hv hw).mp h]

end

/-! ## Identities of resources -/

namespace ResourceId

theorem same_iff {a b : ResourceId} :
    a.same b = true ↔ a.kind = b.kind ∧ a.ns.agrees b.ns = true ∧ a.name.agrees b.name = true := by
  simp [ResourceId.same, and_assoc]

theorem isAtomic_iff {a : ResourceId} :
    a.isAtomic = true ↔ a.ns.isAtomic = true ∧ a.name.isAtomic = true := by
  simp [ResourceId.isAtomic]

/-- Identities that can be looked up are the same when kind, namespace and name are told
apart by the same. -/
theorem same_iff_identity {a b : ResourceId} (ha : a.isAtomic = true) (hb : b.isAtomic = true) :
    a.same b = true ↔
      a.kind = b.kind ∧ a.ns.identity? = b.ns.identity? ∧ a.name.identity? = b.name.identity? := by
  rw [isAtomic_iff] at ha hb
  rw [same_iff, Value.agrees_iff ha.1 hb.1, Value.agrees_iff ha.2 hb.2]

theorem same_self {a : ResourceId} (ha : a.isAtomic = true) : a.same a = true :=
  (same_iff_identity ha ha).mpr ⟨rfl, rfl, rfl⟩

theorem same_symm {a b : ResourceId} (ha : a.isAtomic = true) (hb : b.isAtomic = true)
    (h : a.same b = true) : b.same a = true := by
  obtain ⟨hkind, hns, hname⟩ := (same_iff_identity ha hb).mp h
  exact (same_iff_identity hb ha).mpr ⟨hkind.symm, hns.symm, hname.symm⟩

theorem same_trans {a b c : ResourceId} (ha : a.isAtomic = true) (hb : b.isAtomic = true)
    (hc : c.isAtomic = true) (h : a.same b = true) (h' : b.same c = true) :
    a.same c = true := by
  obtain ⟨hkind, hns, hname⟩ := (same_iff_identity ha hb).mp h
  obtain ⟨hkind', hns', hname'⟩ := (same_iff_identity hb hc).mp h'
  exact (same_iff_identity ha hc).mpr
    ⟨hkind.trans hkind', hns.trans hns', hname.trans hname'⟩

/-- What is the same as one of two identities that are the same is the same
as the other. -/
theorem same_congr {a b c : ResourceId} (ha : a.isAtomic = true) (hb : b.isAtomic = true)
    (hc : c.isAtomic = true) (h : b.same c = true) : a.same b = a.same c := by
  rw [Bool.eq_iff_iff]
  exact ⟨fun hab => same_trans ha hb hc hab h,
    fun hac => same_trans ha hc hb hac (same_symm hb hc h)⟩

end ResourceId

end AppSynthesis
