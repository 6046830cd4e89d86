/-
AppSynthesis.CommandLine.Grammar — the words of a command line and what
they are.

* `Flag`, `Grammar` — the options of a command, and whether its only
  operand takes one word or all words from there on.
* `Grammar.classify` — what a word is: an option may be cut short as long
  as it stays unique, its value may follow an equals sign or, for an
  option of one letter, directly. Negative numbers and words with spaces
  are operands, and so is everything after a lone `--`.
* `Grammar.read` — the options and operands of a row of words, in order,
  the words that nothing takes, and what went wrong where.
* `UsageError` — what can be wrong with a command line, and its wording.
-/
import AppSynthesis.Number.Decimal
import AppSynthesis.Text.Digit
import AppSynthesis.Text.Quoted

namespace AppSynthesis.CommandLine

/-! ## Grammars -/

/-- An option of a command. -/
structure Flag where
  /-- Its spellings; messages join them by slashes. -/
  spellings : List String
  takesValue : Bool
  deriving DecidableEq, Repr

/-- How messages refer to an option. -/
def Flag.title (f : Flag) : String := String.intercalate "/" f.spellings

/-- The option that asks for help. -/
def Flag.help : Flag := ⟨["-h", "--help"], false⟩

/-- The options and the operand of a command. -/
structure Grammar where
  flags : List Flag
  /-- Whether the operand takes all words from its first one on. -/
  operandTakesRest : Bool
  deriving DecidableEq, Repr

/-- All spellings of options, with their options, in order. -/
def Grammar.spellings (g : Grammar) : List (String × Flag) :=
  g.flags.flatMap fun f => f.spellings.map fun s => (s, f)

/-- The option with a spelling. -/
def Grammar.find? (g : Grammar) (spelling : String) : Option Flag :=
  (g.spellings.find? fun e => e.1 = spelling).map (·.2)

/-! ## Errors -/

/-- What is wrong with a command line. -/
inductive UsageError where
  /-- A word that several options begin with. -/
  | ambiguous (word : String) (spellings : List String)
  /-- An option without its value. -/
  | noValue (flag : Flag)
  /-- A value for an option that takes none. -/
  | unusedValue (flag : Flag) (value : String)
  /-- A value that is none of those allowed. -/
  | notAmong (argument value : String) (choices : List String)
  /-- A value that is refused, with the reason. -/
  | refused (flag : Flag) (reason : String)
  /-- Arguments that are missing. -/
  | missing (arguments : List String)
  /-- Words that nothing takes. -/
  | unused (words : List String)
  deriving DecidableEq, Repr

/-- The wording of an error about one argument. -/
def argumentMessage (argument reason : String) : String := "argument " ++ argument ++ ": " ++ reason

/-- The wording of a usage error. -/
def UsageError.message : UsageError → String
  | .ambiguous word spellings =>
    "ambiguous option: " ++ word ++ " could match " ++ String.intercalate ", " spellings
  | .noValue flag => argumentMessage flag.title "expected one argument"
  | .unusedValue flag value =>
    argumentMessage flag.title ("ignored explicit argument " ++ Text.quoted value)
  | .notAmong argument value choices =>
    argumentMessage argument ("invalid choice: " ++ Text.quoted value ++ " (choose from "
      ++ String.intercalate ", " (choices.map Text.quoted) ++ ")")
  | .refused flag reason => argumentMessage flag.title reason
  | .missing arguments =>
    "the following arguments are required: " ++ String.intercalate ", " arguments
  | .unused words => "unrecognized arguments: " ++ String.intercalate " " words

/-! ## Words -/

/-- What follows an option in its word, and whether an equals sign stands
between. -/
structure Attached where
  afterEquals : Bool
  text : List Char
  deriving DecidableEq, Repr

/-- What a word is. -/
inductive Word where
  | operand
  /-- The lone `--`, after which there are operands only. -/
  | separator
  /-- An option as it is spelled, with what follows it in the word. -/
  | known (flag : Flag) (spelling : String) (value : Option Attached)
  | unknown
  deriving DecidableEq, Repr

/-- Text before and after the first equals sign, if there is one. -/
def splitAtEquals (cs : List Char) : List Char × Option Attached :=
  match cs.dropWhile (· ≠ '=') with
  | _ :: value => (cs.takeWhile (· ≠ '='), some ⟨true, value⟩)
  | [] => (cs, none)

/-- Whether text is a negative number: a minus sign, and digits with at
most one point among them, which has a digit after it. -/
def isNegativeNumber : List Char → Bool
  | '-' :: cs =>
    let cs := if cs.getLast? = some '\n' then cs.dropLast else cs
    match cs.dropWhile Text.isDigit with
    | [] => !cs.isEmpty
    | '.' :: fraction => !fraction.isEmpty && fraction.all Text.isDigit
    | _ => false
  | _ => false

/-- The options that a word may stand for, with spelling and value: a word
with two dashes may be cut short before its value; a word with one dash is
an option of one letter with what follows it. -/
def Grammar.matching (g : Grammar) (word : String) : List (Flag × String × Option Attached) :=
  match word.toList with
  | '-' :: '-' :: rest =>
    let (start, value) := splitAtEquals ('-' :: '-' :: rest)
    (g.spellings.filter fun e => start.isPrefixOf e.1.toList).map fun e => (e.2, e.1, value)
  | '-' :: c :: rest =>
    g.spellings.filterMap fun e =>
      if e.1.toList = ['-', c] then some (e.2, e.1, some ⟨false, rest⟩)
      else if ('-' :: c :: rest).isPrefixOf e.1.toList then some (e.2, e.1, none)
      else none
  | _ => []

/-- What a word is, other than the lone `--`. -/
def Grammar.classify (g : Grammar) (word : String) : Except UsageError Word :=
  let cs := word.toList
  if cs.head? ≠ some '-' ∨ cs = ['-'] then .ok .operand
  else match g.find? word with
    | some f => .ok (.known f word none)
    | none =>
      let (start, value) := splitAtEquals cs
      match value, g.find? (String.ofList start) with
      | some v, some f => .ok (.known f (String.ofList start) (some v))
      | _, _ =>
        match g.matching word with
        | [(f, spelling, value)] => .ok (.known f spelling value)
        | _ :: _ :: _ =>
          .error (.ambiguous word ((g.matching word).map fun m => m.2.1))
        | [] =>
          if isNegativeNumber cs ∨ cs.contains ' ' then .ok .operand else .ok .unknown

/-- What words are. After a lone `--` there are operands only. -/
def Grammar.classifyAll (g : Grammar) : List String → Except UsageError (List (String × Word))
  | [] => .ok []
  | "--" :: rest => .ok (("--", .separator) :: rest.map fun w => (w, .operand))
  | w :: rest => do
    let word ← g.classify w
    return (w, word) :: (← g.classifyAll rest)

/-! ## Reading -/

/-- Something that a command takes. -/
inductive Taken where
  | flag (f : Flag) (value : Option String)
  | operand (words : List String)
  deriving DecidableEq, Repr

/-- What was read from words, in order, up to an error if there is one. -/
structure Reading where
  taken : List Taken := []
  /-- The words that nothing takes. -/
  unused : List String := []
  failure : Option UsageError := none
  deriving DecidableEq, Repr

namespace Reading

/-- A reading that has taken something before. -/
def take (t : Taken) (r : Reading) : Reading := { r with taken := t :: r.taken }

/-- A reading with a word before it that nothing takes. -/
def leave (word : String) (r : Reading) : Reading := { r with unused := word :: r.unused }

end Reading

/-- What a word of options stands for: options without values, of which
several may share a word if they have one letter each, up to one with a
value, which may have to follow, or to letters that are no options. -/
structure Cluster where
  flags : List Flag := []
  last : Option (Flag × Option String) := none
  unused : Option String := none

/-- A cluster with an option without value before it. -/
def Cluster.after (f : Flag) (c : Cluster) : Cluster := { c with flags := f :: c.flags }

/-- Splits a word of options, given by its first option, whether that is
spelled with one letter, and what follows it in the word. -/
def Grammar.cluster (g : Grammar) (f : Flag) (short : Bool) (afterEquals : Bool) :
    Option (List Char) → Except UsageError Cluster
  | none => .ok (if f.takesValue then { last := some (f, none) } else { flags := [f] })
  | some value =>
    if f.takesValue then .ok { last := some (f, some (String.ofList value)) }
    else
      let refusal := UsageError.unusedValue f (String.ofList value)
      match value with
      | [] => .error refusal
      | c :: rest =>
        if !short || afterEquals || c = '-' then .error refusal
        else match g.find? (String.ofList ['-', c]) with
          | none => .ok { flags := [f], unused := some (String.ofList ('-' :: c :: rest)) }
          | some next =>
            match rest with
            | [] => (g.cluster next true false none).map (.after f)
            | '=' :: rest => (g.cluster next true true (some rest)).map (.after f)
            | d :: rest => (g.cluster next true false (some (d :: rest))).map (.after f)

/-- Whether an option is spelled with one letter. -/
def isShort (spelling : String) : Bool := spelling.toList.take 2 ≠ ['-', '-']

/-- A reading that has taken options without values before. -/
def Reading.takeAll (flags : List Flag) (r : Reading) : Reading :=
  flags.foldr (fun f r => r.take (.flag f none)) r

/-- The reading of classified words; `due` says whether the operand is
still to come. -/
def Grammar.readFrom (g : Grammar) (due : Bool) : List (String × Word) → Reading
  | [] => {}
  | (w, .unknown) :: rest => (g.readFrom due rest).leave w
  | (_, .known f spelling value) :: rest =>
    match g.cluster f (isShort spelling) (value.any Attached.afterEquals)
        (value.map Attached.text) with
    | .error e => { failure := some e }
    | .ok c =>
      match c.last with
      | none =>
        let r := g.readFrom due rest
        ({ r with unused := c.unused.toList ++ r.unused }).takeAll c.flags
      | some (last, some v) =>
        ((g.readFrom due rest).take (.flag last (some v))).takeAll c.flags
      | some (last, none) =>
        match rest with
        | (v, .operand) :: rest =>
          ((g.readFrom due rest).take (.flag last (some v))).takeAll c.flags
        | _ => { failure := some (.noValue last) }
  | (s, .separator) :: (w, next) :: rest =>
    if !due then (g.readFrom due ((w, next) :: rest)).leave s
    else if g.operandTakesRest then
      { taken := [.operand (s :: w :: rest.map (·.1))] }
    else (g.readFrom false rest).take (.operand [w])
  | [(s, .separator)] => { unused := [s] }
  | (w, .operand) :: rest =>
    if !due then (g.readFrom due rest).leave w
    else if g.operandTakesRest then { taken := [.operand (w :: rest.map (·.1))] }
    else
      match rest with
      | (_, .separator) :: rest => (g.readFrom false rest).take (.operand [w])
      | rest => (g.readFrom false rest).take (.operand [w])

/-- The reading of words. Words that may be several options are found
before anything is taken. -/
def Grammar.read (g : Grammar) (words : List String) : Reading :=
  match g.classifyAll words with
  | .error e => { failure := some e }
  | .ok ws => g.readFrom true ws

end AppSynthesis.CommandLine
