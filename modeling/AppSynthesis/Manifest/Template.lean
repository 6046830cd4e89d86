/-
AppSynthesis.Manifest.Template — how the content of an App is transformed.

* `Template.Ytt`, `Template.Helm` — the two engines that take values.
* `Template.Step` — one stage; the stages of other tools are carried as
  they are.
-/
import AppSynthesis.Manifest.Fetch

namespace AppSynthesis.Template

/-- One source of values for an engine. -/
structure ValuesSource where
  secretRef : Option ValuesRef := none
  configMapRef : Option ValuesRef := none
  path : Option String := none
  downwardApi : Option (TextMap Value) := none
  deriving DecidableEq, Repr, Inhabited

def ValuesSource.schema : Schema ValuesSource where
  name := "TemplateValuesSource"
  Row := Option ValuesRef × Option ValuesRef × Option String × Option (TextMap Value) × Unit
  fields := .optional "secret_ref" "secretRef" ValuesRef.schema.codec <|
    .optional "config_map_ref" "configMapRef" ValuesRef.schema.codec <|
    .optional "path" "path" .text <|
    .optional "downward_api" "downwardAPI" .valueMap .done
  build := fun (secretRef, configMapRef, path, downwardApi, ()) =>
    { secretRef, configMapRef, path, downwardApi }
  row x := (x.secretRef, x.configMapRef, x.path, x.downwardApi, ())

/-- Templating with ytt overlays. -/
structure Ytt where
  ignoreUnknownComments : Option Bool := none
  strict : Option Bool := none
  inline : Option Fetch.Inline := none
  paths : Option (List String) := none
  fileMarks : Option (List String) := none
  valuesFrom : Option (List ValuesSource) := none
  deriving DecidableEq, Repr, Inhabited

def Ytt.schema : Schema Ytt where
  name := "TemplateYtt"
  Row := Option Bool × Option Bool × Option Fetch.Inline × Option (List String)
    × Option (List String) × Option (List ValuesSource) × Unit
  fields := .optional "ignore_unknown_comments" "ignoreUnknownComments" .flag <|
    .optional "strict" "strict" .flag <|
    .optional "inline" "inline" Fetch.Inline.schema.codec <|
    .optional "paths" "paths" (.list .text) <|
    .optional "file_marks" "fileMarks" (.list .text) <|
    .optional "values_from" "valuesFrom" (.list ValuesSource.schema.codec) .done
  build := fun (ignoreUnknownComments, strict, inline, paths, fileMarks, valuesFrom, ()) =>
    { ignoreUnknownComments, strict, inline, paths, fileMarks, valuesFrom }
  row x := (x.ignoreUnknownComments, x.strict, x.inline, x.paths, x.fileMarks, x.valuesFrom, ())

/-- Templating with helm. The name and the namespace of the release may
come from annotations: they hold any value, null when absent. -/
structure Helm where
  name : Value := .null
  ns : Value := .null
  path : Option String := none
  valuesFrom : Option (List ValuesSource) := none
  kubeVersion : Option String := none
  kubeApi : Option (TextMap Value) := none
  deriving DecidableEq, Repr, Inhabited

def Helm.schema : Schema Helm where
  name := "TemplateHelm"
  Row := Value × Value × Option String × Option (List ValuesSource) × Option String
    × Option (TextMap Value) × Unit
  fields := .loose "name" "name" .anyText <|
    .loose "namespace" "namespace" .anyText <|
    .optional "path" "path" .text <|
    .optional "values_from" "valuesFrom" (.list ValuesSource.schema.codec) <|
    .optional "kube_version" "kubeVersion" .text <|
    .optional "kube_api" "kubeAPIs" .valueMap .done
  build := fun (name, ns, path, valuesFrom, kubeVersion, kubeApi, ()) =>
    { name, ns, path, valuesFrom, kubeVersion, kubeApi }
  row x := (x.name, x.ns, x.path, x.valuesFrom, x.kubeVersion, x.kubeApi, ())

/-- One stage of the transformation; one tool is expected. -/
structure Step where
  ytt : Option Ytt := none
  helmTemplate : Option Helm := none
  kbld : Option (TextMap Value) := none
  sops : Option (TextMap Value) := none
  cue : Option (TextMap Value) := none
  deriving DecidableEq, Repr, Inhabited

def Step.schema : Schema Step where
  name := "TemplateStep"
  Row := Option Ytt × Option Helm × Option (TextMap Value) × Option (TextMap Value)
    × Option (TextMap Value) × Unit
  fields := .optional "ytt" "ytt" Ytt.schema.codec <|
    .optional "helm_template" "helmTemplate" Helm.schema.codec <|
    .optional "kbld" "kbld" .valueMap <|
    .optional "sops" "sops" .valueMap <|
    .optional "cue" "cue" .valueMap .done
  build := fun (ytt, helmTemplate, kbld, sops, cue, ()) => { ytt, helmTemplate, kbld, sops, cue }
  row x := (x.ytt, x.helmTemplate, x.kbld, x.sops, x.cue, ())

end AppSynthesis.Template
