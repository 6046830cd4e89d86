/-
AppSynthesis.Folder — the files that a command works on.

* `Path.normal` — a path as messages show it: without empty parts and
  without parts that stay where they are.
* `Folder` — files by name, with the folders that their names imply.
  `Folder.read` and `Folder.write` fail as a file system does: for a file
  that is not there, for a folder in place of a file, and for a file in
  place of a folder.
* `readDocuments` — the documents of a file.
-/
import AppSynthesis.Error
import AppSynthesis.Yaml.Document

namespace AppSynthesis

/-! ## Paths -/

namespace Path

/-- The parts of a path that lead somewhere. -/
def parts (path : String) : List String :=
  (path.splitOn "/").filter fun p => p ≠ "" && p ≠ "."

/-- What a path starts with when it does not start in the folder at hand:
one slash, or exactly two. -/
def root (path : String) : String :=
  match path.toList with
  | '/' :: '/' :: '/' :: _ => "/"
  | '/' :: '/' :: _ => "//"
  | '/' :: _ => "/"
  | _ => ""

/-- The path in its shortest spelling. -/
def normal (path : String) : String :=
  let s := root path ++ String.intercalate "/" (parts path)
  if s = "" then "." else s

/-- The file that standard output is reached by. -/
def standardOutput : String := "/dev/stdout"

/-- The file that is always empty, whatever is written to it. -/
def nothing : String := "/dev/null"

end Path

/-! ## Folders -/

/-- The files of a folder, by name. -/
abbrev Folder := List (String × String)

namespace Folder

/-- What stands at a place. -/
inductive Entry where
  | file (text : String)
  | folder
  | absent
  deriving DecidableEq, Repr

/-- What stands under the given parts of a path. -/
def entry (f : Folder) (parts : List String) : Entry :=
  match f.find? fun e => Path.parts e.1 = parts with
  | some e => .file e.2
  | none =>
    if parts = [] ∨ f.any fun e => parts.isPrefixOf (Path.parts e.1) then .folder else .absent

/-- The folder that parts of a path lead to, starting in `here`. Nothing is
known of what lies outside. -/
def walk (f : Folder) (here : List String) : List String → Except Fault (List String)
  | [] => .ok here
  | ".." :: rest => if here = [] then .error .noFile else walk f here.dropLast rest
  | p :: rest =>
    match f.entry (here ++ [p]) with
    | .folder => walk f (here ++ [p]) rest
    | .file _ => .error .notDirectory
    | .absent => .error .noFile

/-- The place that a path leads to: its folder has to be there. -/
def locate (f : Folder) (path : String) : Except Fault (List String) :=
  let parts := Path.parts path
  match parts.getLast? with
  | none => .ok []
  | some ".." => walk f [] parts
  | some last => (walk f [] parts.dropLast).map fun here => here ++ [last]

/-- The text of the file at a path. -/
def read (f : Folder) (path : String) : Except Fault String :=
  if path = Path.nothing then .ok ""
  else if path = "" then .error .noFile
  else if Path.root path ≠ "" then .error .noFile
  else do
    match f.entry (← f.locate path) with
    | .file text => .ok text
    | .folder => .error .isDirectory
    | .absent => .error .noFile

/-- The folder with a file written. A path that ends in a slash names no
file. -/
def write (f : Folder) (path text : String) : Except Fault Folder :=
  if path = Path.nothing then .ok f
  else if path = "" then .error .noFile
  else if Path.root path ≠ "" then .error .noFile
  else do
    let place ← f.locate path
    if path.endsWith "/" then throw .isDirectory
    match f.entry place with
    | .folder => .error .isDirectory
    | .file _ => .ok (f.map fun e => if Path.parts e.1 = place then (e.1, text) else e)
    | .absent => .ok (f ++ [(String.intercalate "/" place, text)])

end Folder

/-! ## Documents of a file -/

/-- What it means for a file when its text is refused. -/
def Yaml.Refusal.error (path : String) : Yaml.Refusal → Error
  | .malformed => .input (.unreadable path)
  | .badScalar => .fault .badScalar
  | .emptyScalar => .fault .emptyScalar
  | .unknownScalar => .fault .unknownScalar
  | .outOfRange => .fault .outOfRange
  | .noTime => .fault .noMember

/-- The documents of the file at a path that count as given. Their
collections are numbered from `next` on; the second result is the number
that is free afterwards. -/
def readDocuments (read : String → Except Fault String) (path : String) (next : Nat) :
    Except Error (List Value × Nat) := do
  let text ← (read path).mapError Error.fault
  (Yaml.documents text next).mapError (Yaml.Refusal.error path)

end AppSynthesis
