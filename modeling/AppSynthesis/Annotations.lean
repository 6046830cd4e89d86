/-
AppSynthesis.Annotations — the annotations that customise an App.

An annotation may be repeated by adding a point and a suffix to its key.
The values of such an annotation are taken in the order of the suffixes,
the bare key first, so that the order of the annotations does not matter.

* `Annotations` — annotations with text keys; the values are any values.
* `Annotations.suffix?` — the suffix of a key relative to a base key.
* `Annotations.bySuffix` — the values of one annotation by suffix.
* `Annotations.ordered` — these values in the order of the suffixes.
-/
import AppSynthesis.Manifest.Record

namespace AppSynthesis

/-- Annotations, by their keys. -/
abbrev Annotations := TextMap Value

namespace Annotations

/-! ## Keys -/

/-- On an App: it is not updated. -/
def manuallyControlled : String := "ext.packaging.carvel.dev/manually-controlled"

/-- The release name of helm steps. -/
def helmName : String := "ext.packaging.carvel.dev/helm-template-name"

/-- The release namespace of helm steps. -/
def helmNamespace : String := "ext.packaging.carvel.dev/helm-template-namespace"

/-- Secrets whose contents become files of the first ytt step; repeatable. -/
def yttPathsSecret : String := "ext.packaging.carvel.dev/ytt-paths-from-secret-name"

/-- Secrets with values for the first engine step, if that is helm;
repeatable. -/
def helmValuesSecret : String :=
  "ext.packaging.carvel.dev/helm-template-values-from-secret-name"

/-- The declared values are overlays of ytt, no data values. -/
def valuesAreOverlays : String := "ext.packaging.carvel.dev/ytt-data-values-overlays"

/-- On an App: the name of the package that it was built from. -/
def packageRefName : String := "packaging.carvel.dev/package-ref-name"

/-- On an App: the version of the package that it was built from. -/
def packageVersion : String := "packaging.carvel.dev/package-version"

/-- The key that names the secret of a fetch step, by the text of its
index. -/
def fetchSecretKey (index : Value) : String :=
  "ext.packaging.carvel.dev/fetch-" ++ index.text ++ "-secret-name"

/-- The key that names the secret of the fetch step with an index. -/
def fetchSecret (index : Nat) : String := fetchSecretKey (.int index)

/-! ## Suffixes -/

/-- The characters that follow `start` in `cs`, if it begins so. -/
def dropStart? : List Char → List Char → Option (List Char)
  | [], cs => some cs
  | _ :: _, [] => none
  | s :: start, c :: cs => if s = c then dropStart? start cs else none

/-- The suffix of a key relative to a base key: empty for the base key
itself, and what follows the point for a longer key. A key that ends with
the point is of neither form. -/
def suffix? (key base : String) : Option String :=
  match dropStart? base.toList key.toList with
  | some [] => some ""
  | some ('.' :: c :: rest) => some (String.ofList (c :: rest))
  | _ => none

/-- The values of one annotation by suffix. -/
def bySuffix (annotations : Annotations) (base : String) : TextMap Value :=
  annotations.filterMap fun e => (suffix? e.1 base).map fun s => (s, e.2)

/-- The values of several annotations, by base key and suffix. -/
def index (annotations : Annotations) (bases : List String) : TextMap (TextMap Value) :=
  TextMap.ofList (bases.map fun base => (base, bySuffix annotations base))

/-- The values of one annotation in the order of the suffixes. -/
def ordered (annotations : Annotations) (base : String) : List Value :=
  ((bySuffix annotations base).mergeSort fun a b => decide (a.1 ≤ b.1)).map (·.2)

/-! ## Annotations in documents -/

/-- The entries with text keys, unless another key is among them. -/
def textEntries? (entries : Entries) : Option (TextMap Value) :=
  entries.mapM fun e =>
    match e.1 with
    | .str key => some (key, e.2)
    | _ => none

/-- Annotations as a document gives them. What does not count as given has
none; anything but a map with text keys is a fault. -/
def ofValue (v : Value) : Except Error Annotations :=
  if v.isTrue then
    match v with
    | .map _ entries =>
      match textEntries? entries with
      | some annotations => .ok annotations
      | none => .error (.fault .noMember)
    | _ => .error (.fault .noMember)
  else .ok []

end Annotations

end AppSynthesis
