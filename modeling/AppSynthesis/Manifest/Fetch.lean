/-
AppSynthesis.Manifest.Fetch — where the content of an App comes from.

* `Fetch.Inline`, `Fetch.Image`, `Fetch.Http`, `Fetch.Git`,
  `Fetch.HelmChart`, `Fetch.Bundle` — the kinds of sources.
* `Fetch.Step` — a step may name a source of each kind; the first in the
  order above is the active one.
* `Fetch.Source`, `Fetch.Step.source?`, `Fetch.Step.withSource` — the
  active source, and a step with the source of one kind replaced.
-/
import AppSynthesis.Manifest.Reference

namespace AppSynthesis.Fetch

/-! ## Inline content -/

/-- One source of inline files. -/
structure InlineSource where
  secretRef : Option FilesRef := none
  configMapRef : Option FilesRef := none
  deriving DecidableEq, Repr, Inhabited

def InlineSource.schema : Schema InlineSource where
  name := "InlineSource"
  Row := Option FilesRef × Option FilesRef × Unit
  fields := .optional "secret_ref" "secretRef" FilesRef.schema.codec <|
    .optional "config_map_ref" "configMapRef" FilesRef.schema.codec .done
  build := fun (secretRef, configMapRef, ()) => { secretRef, configMapRef }
  row x := (x.secretRef, x.configMapRef, ())

/-- Content given in the App itself, or taken from secrets and config
maps. -/
structure Inline where
  /-- File paths and the contents of the files. -/
  paths : Option (TextMap String) := none
  /-- Secrets and config maps whose keys become file paths. -/
  pathsFrom : Option (List InlineSource) := none
  deriving DecidableEq, Repr, Inhabited

def Inline.schema : Schema Inline where
  name := "FetchInline"
  Row := Option (TextMap String) × Option (List InlineSource) × Unit
  fields := .optional "paths" "paths" .textMap <|
    .optional "paths_from" "pathsFrom" (.list InlineSource.schema.codec) .done
  build := fun (paths, pathsFrom, ()) => { paths, pathsFrom }
  row x := (x.paths, x.pathsFrom, ())

/-! ## Remote content -/

/-- Content of a container image. -/
structure Image where
  url : Option String := none
  secretRef : Option ObjectRef := none
  subPath : Option String := none
  tagSelection : Option (TextMap Value) := none
  deriving DecidableEq, Repr, Inhabited

def Image.schema : Schema Image where
  name := "FetchImage"
  Row := Option String × Option ObjectRef × Option String × Option (TextMap Value) × Unit
  fields := .optional "url" "url" .text <|
    .optional "secret_ref" "secretRef" ObjectRef.schema.codec <|
    .optional "sub_path" "subPath" .text <|
    .optional "tag_selection" "tagSelection" .valueMap .done
  build := fun (url, secretRef, subPath, tagSelection, ()) =>
    { url, secretRef, subPath, tagSelection }
  row x := (x.url, x.secretRef, x.subPath, x.tagSelection, ())

/-- Content downloaded from an address. -/
structure Http where
  url : Option String := none
  sha256 : Option String := none
  secretRef : Option ObjectRef := none
  subPath : Option String := none
  deriving DecidableEq, Repr, Inhabited

def Http.schema : Schema Http where
  name := "FetchHTTP"
  Row := Option String × Option String × Option ObjectRef × Option String × Unit
  fields := .optional "url" "url" .text <|
    .optional "sha256" "sha256" .text <|
    .optional "secret_ref" "secretRef" ObjectRef.schema.codec <|
    .optional "sub_path" "subPath" .text .done
  build := fun (url, sha256, secretRef, subPath, ()) => { url, sha256, secretRef, subPath }
  row x := (x.url, x.sha256, x.secretRef, x.subPath, ())

/-- Content cloned from a git repository. -/
structure Git where
  url : Option String := none
  ref : Option String := none
  refSelection : Option (TextMap Value) := none
  secretRef : Option ObjectRef := none
  lfsSkipSmudge : Option Bool := none
  subPath : Option String := none
  depth : Option Int := none
  forceHttpBasicAuth : Option Bool := none
  deriving DecidableEq, Repr, Inhabited

def Git.schema : Schema Git where
  name := "FetchGit"
  Row := Option String × Option String × Option (TextMap Value) × Option ObjectRef
    × Option Bool × Option String × Option Int × Option Bool × Unit
  fields := .optional "url" "url" .text <|
    .optional "ref" "ref" .text <|
    .optional "ref_selection" "refSelection" .valueMap <|
    .optional "secret_ref" "secretRef" ObjectRef.schema.codec <|
    .optional "lfs_skip_smudge" "lfsSkipSmudge" .flag <|
    .optional "sub_path" "subPath" .text <|
    .optional "depth" "depth" .count <|
    .optional "force_http_basic_auth" "forceHTTPBasicAuth" .flag .done
  build := fun (url, ref, refSelection, secretRef, lfsSkipSmudge, subPath, depth,
      forceHttpBasicAuth, ()) =>
    { url, ref, refSelection, secretRef, lfsSkipSmudge, subPath, depth, forceHttpBasicAuth }
  row x := (x.url, x.ref, x.refSelection, x.secretRef, x.lfsSkipSmudge, x.subPath, x.depth,
    x.forceHttpBasicAuth, ())

/-- The repository that a helm chart is fetched from. -/
structure Repository where
  url : Option String := none
  secretRef : Option ObjectRef := none
  deriving DecidableEq, Repr, Inhabited

def Repository.schema : Schema Repository where
  name := "HelmChartRepository"
  Row := Option String × Option ObjectRef × Unit
  fields := .optional "url" "url" .text <|
    .optional "secret_ref" "secretRef" ObjectRef.schema.codec .done
  build := fun (url, secretRef, ()) => { url, secretRef }
  row x := (x.url, x.secretRef, ())

/-- Content fetched as a helm chart. -/
structure HelmChart where
  name : Option String := none
  version : Option String := none
  repository : Option Repository := none
  deriving DecidableEq, Repr, Inhabited

def HelmChart.schema : Schema HelmChart where
  name := "FetchHelmChart"
  Row := Option String × Option String × Option Repository × Unit
  fields := .optional "name" "name" .text <|
    .optional "version" "version" .text <|
    .optional "repository" "repository" Repository.schema.codec .done
  build := fun (name, version, repository, ()) => { name, version, repository }
  row x := (x.name, x.version, x.repository, ())

/-- Content of an imgpkg bundle. -/
structure Bundle where
  image : Option String := none
  secretRef : Option ObjectRef := none
  tagSelection : Option (TextMap Value) := none
  deriving DecidableEq, Repr, Inhabited

def Bundle.schema : Schema Bundle where
  name := "FetchImgpkgBundle"
  Row := Option String × Option ObjectRef × Option (TextMap Value) × Unit
  fields := .optional "image" "image" .text <|
    .optional "secret_ref" "secretRef" ObjectRef.schema.codec <|
    .optional "tag_selection" "tagSelection" .valueMap .done
  build := fun (image, secretRef, tagSelection, ()) => { image, secretRef, tagSelection }
  row x := (x.image, x.secretRef, x.tagSelection, ())

/-! ## Steps -/

/-- One step of fetching content; one kind of source is expected. -/
structure Step where
  inline : Option Inline := none
  image : Option Image := none
  http : Option Http := none
  git : Option Git := none
  helmChart : Option HelmChart := none
  imgpkgBundle : Option Bundle := none
  /-- The directory that the content is placed into. -/
  path : Option String := none
  deriving DecidableEq, Repr, Inhabited

def Step.schema : Schema Step where
  name := "FetchStep"
  Row := Option Inline × Option Image × Option Http × Option Git × Option HelmChart
    × Option Bundle × Option String × Unit
  fields := .optional "inline" "inline" Inline.schema.codec <|
    .optional "image" "image" Image.schema.codec <|
    .optional "http" "http" Http.schema.codec <|
    .optional "git" "git" Git.schema.codec <|
    .optional "helm_chart" "helmChart" HelmChart.schema.codec <|
    .optional "imgpkg_bundle" "imgpkgBundle" Bundle.schema.codec <|
    .optional "path" "path" .text .done
  build := fun (inline, image, http, git, helmChart, imgpkgBundle, path, ()) =>
    { inline, image, http, git, helmChart, imgpkgBundle, path }
  row x := (x.inline, x.image, x.http, x.git, x.helmChart, x.imgpkgBundle, x.path, ())

/-- A source of some kind. -/
inductive Source where
  | inline (x : Inline)
  | image (x : Image)
  | http (x : Http)
  | git (x : Git)
  | helmChart (x : HelmChart)
  | imgpkgBundle (x : Bundle)
  deriving DecidableEq, Repr

namespace Step

/-- The active source: the first that the step names. -/
def source? (step : Step) : Option Source :=
  step.inline.map .inline
    <|> step.image.map .image
    <|> step.http.map .http
    <|> step.git.map .git
    <|> step.helmChart.map .helmChart
    <|> step.imgpkgBundle.map .imgpkgBundle

/-- The step with its source of the same kind replaced. -/
def withSource (step : Step) : Source → Step
  | .inline x => { step with inline := some x }
  | .image x => { step with image := some x }
  | .http x => { step with http := some x }
  | .git x => { step with git := some x }
  | .helmChart x => { step with helmChart := some x }
  | .imgpkgBundle x => { step with imgpkgBundle := some x }

end Step

end AppSynthesis.Fetch
