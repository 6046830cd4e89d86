/-
AppSynthesis.Manifest.Reference — references to the objects that hold
content or credentials, by name, in the namespace of the record that
refers to them.

A reference whose name may come from an annotation holds any value;
read from a document it is text.
-/
import AppSynthesis.Schema.Record

namespace AppSynthesis

/-- A reference to a secret or config map. -/
structure ObjectRef where
  name : Value
  deriving DecidableEq, Repr, Inhabited

def ObjectRef.schema : Schema ObjectRef where
  name := "LocalObjectReference"
  Row := Value × Unit
  fields := .required "name" "name" .anyText .done
  build := fun (name, ()) => { name }
  row x := (x.name, ())

/-- A reference to a secret or config map whose entries become files. -/
structure FilesRef where
  name : Value
  /-- The directory that the files are placed into. -/
  directoryPath : Option String := none
  deriving DecidableEq, Repr, Inhabited

def FilesRef.schema : Schema FilesRef where
  name := "InlineSourceRef"
  Row := Value × Option String × Unit
  fields := .required "name" "name" .anyText <|
    .optional "directory_path" "directoryPath" .text .done
  build := fun (name, directoryPath, ()) => { name, directoryPath }
  row x := (x.name, x.directoryPath, ())

/-- A reference to a secret or config map that holds template values. -/
structure ValuesRef where
  name : Value
  deriving DecidableEq, Repr, Inhabited

def ValuesRef.schema : Schema ValuesRef where
  name := "TemplateValuesSourceRef"
  Row := Value × Unit
  fields := .required "name" "name" .anyText .done
  build := fun (name, ()) => { name }
  row x := (x.name, ())

/-- A secret that holds the credentials of another cluster. -/
structure KubeconfigRef where
  name : String
  key : Option String
  deriving DecidableEq, Repr, Inhabited

def KubeconfigRef.schema : Schema KubeconfigRef where
  name := "KubeconfigSecretRef"
  Row := String × Option String × Unit
  fields := .required "name" "name" .text <| .optional "key" "key" .text .done
  build := fun (name, key, ()) => { name, key }
  row x := (x.name, x.key, ())

/-- A secret that holds the values an install declares for its package. -/
structure InstallValuesRef where
  name : String
  key : Option String
  deriving DecidableEq, Repr, Inhabited

def InstallValuesRef.schema : Schema InstallValuesRef where
  name := "PackageInstallValuesSecretRef"
  Row := String × Option String × Unit
  fields := .required "name" "name" .text <| .optional "key" "key" .text .done
  build := fun (name, key, ()) => { name, key }
  row x := (x.name, x.key, ())

end AppSynthesis
