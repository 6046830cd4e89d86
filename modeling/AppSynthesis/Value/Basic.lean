/-
AppSynthesis.Value.Basic — the values that documents are made of.

* `Value` — null, truth values, numbers, text, timestamps, lists and
  maps. A map keeps its entries in order, and its keys are values too.
* `Origin` — the place of a document that a value was read from. The
  same list or map may be reached on two ways in a document that uses
  anchors; its origin tells it from an equal one that was written twice.
  Nothing but the printer of documents looks at origins.
* `Value.same` — equality of values: origins and the order of entries do
  not count, and numbers and truth values are compared as numbers.
* `Value.agrees` — equality inside collections, records and identities.
  What is not a number is one value of documents: it equals nothing when
  it is compared by itself, and is found where it was put.
* `Value.isTrue` — what counts as given: not null, zero or empty.
-/
import AppSynthesis.Number.Binary64
import AppSynthesis.Calendar

namespace AppSynthesis

/-- The place of a document that a value was read from; none for a value
that was built. -/
abbrev Origin := Option Nat

/-- A value of a document. -/
inductive Value where
  | null
  | bool (b : Bool)
  | int (n : Int)
  | float (x : Binary64)
  | str (s : String)
  | stamp (origin : Origin) (t : Timestamp)
  | list (origin : Origin) (items : List Value)
  | map (origin : Origin) (entries : List (Value × Value))
  deriving Inhabited, Repr

/-- The entries of a map, in order. -/
abbrev Entries := List (Value × Value)

namespace Value

/-! ## Identity -/

mutual

/-- Whether two values are identical, origins and order included. -/
def beq : Value → Value → Bool
  | .null, .null => true
  | .bool a, .bool b => a == b
  | .int a, .int b => a == b
  | .float a, .float b => a == b
  | .str a, .str b => a == b
  | .stamp o a, .stamp p b => o == p && a == b
  | .list o a, .list p b => o == p && beqList a b
  | .map o a, .map p b => o == p && beqEntries a b
  | _, _ => false

/-- Whether two lists of values are identical. -/
def beqList : List Value → List Value → Bool
  | [], [] => true
  | a :: as, b :: bs => beq a b && beqList as bs
  | _, _ => false

/-- Whether two rows of entries are identical. -/
def beqEntries : Entries → Entries → Bool
  | [], [] => true
  | (k, v) :: as, (l, w) :: bs => beq k l && beq v w && beqEntries as bs
  | _, _ => false

end

mutual

theorem eq_of_beq : ∀ {a b : Value}, beq a b = true → a = b
  | .null, b, h => by cases b <;> simp_all [beq]
  | .bool _, b, h => by cases b <;> simp_all [beq]
  | .int _, b, h => by cases b <;> simp_all [beq]
  | .float _, b, h => by cases b <;> simp_all [beq]
  | .str _, b, h => by cases b <;> simp_all [beq]
  | .stamp _ _, b, h => by cases b <;> simp_all [beq]
  | .list _ a, b, h => by
    cases b <;> simp [beq] at h
    exact h.1 ▸ eq_of_beqList h.2 ▸ rfl
  | .map _ a, b, h => by
    cases b <;> simp [beq] at h
    exact h.1 ▸ eq_of_beqEntries h.2 ▸ rfl

theorem eq_of_beqList : ∀ {a b : List Value}, beqList a b = true → a = b
  | [], b, h => by cases b <;> simp_all [beqList]
  | a :: as, b, h => by
    cases b <;> simp [beqList] at h
    rw [eq_of_beq h.1, eq_of_beqList h.2]

theorem eq_of_beqEntries : ∀ {a b : Entries}, beqEntries a b = true → a = b
  | [], b, h => by cases b <;> simp_all [beqEntries]
  | (k, v) :: as, b, h => by
    cases b with
    | nil => simp [beqEntries] at h
    | cons e bs =>
      simp [beqEntries] at h
      rw [eq_of_beqEntries h.2, eq_of_beq h.1.1, eq_of_beq h.1.2]

end

mutual

theorem beq_self : ∀ a : Value, beq a a = true
  | .null => rfl
  | .bool _ => by simp [beq]
  | .int _ => by simp [beq]
  | .float _ => by simp [beq]
  | .str _ => by simp [beq]
  | .stamp _ _ => by simp [beq]
  | .list _ a => by simp [beq, beqList_self a]
  | .map _ a => by simp [beq, beqEntries_self a]

theorem beqList_self : ∀ a : List Value, beqList a a = true
  | [] => rfl
  | a :: as => by simp [beqList, beq_self a, beqList_self as]

theorem beqEntries_self : ∀ a : Entries, beqEntries a a = true
  | [] => rfl
  | (k, v) :: as => by simp [beqEntries, beq_self k, beq_self v, beqEntries_self as]

end

instance : DecidableEq Value := fun a b =>
  if h : beq a b = true then isTrue (eq_of_beq h)
  else isFalse fun e => h (e ▸ beq_self a)

/-! ## Equality -/

/-- The number that a truth value counts as. -/
def ofTruth (b : Bool) : Int := if b then 1 else 0

/-- Whether a value is what is not a number. -/
def isNaN : Value → Bool
  | .float .nan => true
  | _ => false

mutual

/-- Equality of values. Truth values count as zero and one, integers and
floating-point numbers are compared exactly, and two maps are equal when
they have the same keys with equal values. -/
def same : Value → Value → Bool
  | .null, .null => true
  | .bool a, .bool b => a == b
  | .bool a, .int n => ofTruth a == n
  | .bool a, .float x => x.sameInt (ofTruth a)
  | .int n, .bool b => n == ofTruth b
  | .int n, .int m => n == m
  | .int n, .float x => x.sameInt n
  | .float x, .bool b => x.sameInt (ofTruth b)
  | .float x, .int n => x.sameInt n
  | .float x, .float y => x.sameNumber y
  | .str a, .str b => a == b
  | .stamp _ a, .stamp _ b => a.same b
  | .list _ a, .list _ b => sameItems a b
  | .map _ a, .map _ b => a.length == b.length && sameEntries a b
  | _, _ => false

/-- Equality of lists, item by item. -/
def sameItems : List Value → List Value → Bool
  | [], [] => true
  | a :: as, b :: bs => (same a b || (isNaN a && isNaN b)) && sameItems as bs
  | _, _ => false

/-- Whether each entry has one with an equal key and an equal value among
the second entries. -/
def sameEntries : Entries → Entries → Bool
  | [], _ => true
  | (k, v) :: rest, bs =>
    (match bs.find? fun e => same k e.1 || (isNaN k && isNaN e.1) with
      | some e => same v e.2 || (isNaN v && isNaN e.2)
      | none => false) && sameEntries rest bs

end

/-- Equality of values inside something else: what is not a number is
equal to itself there. -/
def agrees (v w : Value) : Bool := same v w || (isNaN v && isNaN w)

/-! ## Kinds of values -/

/-- Whether a value counts as given: null, false, zero, empty text and
empty collections do not. -/
def isTrue : Value → Bool
  | .null => false
  | .bool b => b
  | .int n => n != 0
  | .float x => !x.isZero
  | .str s => !s.isEmpty
  | .stamp _ _ => true
  | .list _ items => !items.isEmpty
  | .map _ entries => !entries.isEmpty

/-- Whether a value can be a key or part of an identity: lists and maps
cannot. -/
def isAtomic : Value → Bool
  | .list _ _ => false
  | .map _ _ => false
  | _ => true

/-- Whether a value is text. -/
def isText : Value → Bool
  | .str _ => true
  | _ => false

/-- The values that a value runs through: the items of a list, the keys
of a map, the characters of text. Nothing else can be run through. -/
def members? : Value → Option (List Value)
  | .list _ items => some items
  | .map _ entries => some (entries.map (·.1))
  | .str s => some (s.toList.map fun c => .str (String.singleton c))
  | _ => none

/-- A list or map as a collection of its own, with the same members. -/
def detached : Value → Value
  | .list _ items => .list none items
  | .map _ entries => .map none entries
  | v => v

/-- The value, unless it does not count as given. -/
def orElse (v default : Value) : Value := if v.isTrue then v else default

end Value

namespace Entries

/-! ## Entries -/

/-- The value under a text key. -/
def get? (entries : Entries) (key : String) : Option Value :=
  (entries.find? fun e => e.1 = .str key).map (·.2)

/-- The value under a text key, null when there is none. -/
def getD (entries : Entries) (key : String) : Value := (get? entries key).getD .null

/-- Whether there is an entry with a text key. -/
def hasKey (entries : Entries) (key : String) : Bool := (get? entries key).isSome

/-- The entries with `key` mapped to `value`. An entry with an equal key
keeps its place and its spelling of the key; a new one comes last. -/
def insert (entries : Entries) (key value : Value) : Entries :=
  match entries with
  | [] => [(key, value)]
  | (k, v) :: rest =>
    if k.agrees key then (k, value) :: rest else (k, v) :: insert rest key value

/-- The entries that result from inserting each in turn. -/
def ofList (pairs : List (Value × Value)) : Entries :=
  pairs.foldl (fun entries p => insert entries p.1 p.2) []

end Entries

end AppSynthesis
