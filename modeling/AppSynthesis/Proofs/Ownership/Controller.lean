/-
AppSynthesis.Proofs.Ownership.Controller — the owner references of an App that an owner was
given control of.

* `OwnerReference.Coreferent` — two references are to the same owner.
* `OwnerReference.Upserted` — references with one put in the place of the first to its owner,
  or at the end, and `upsert_iff`, that these are the ones which are made.
* `controlOfRecord_eq_ok` — what it takes for an owner to be given control.
* `controlOfRecord_upserted` — what it comes to: which references there are then, who controls
  the App then, and that giving control once more changes nothing.

The controller of an App is the first of its references that is marked as one, and the reference
that is replaced is the first to the owner; neither needs to come before the other. That the new
reference is the controller afterwards is where the check of the former controller comes in: a
marked reference before the place of the new one would be to another owner
(`OwnerReference.find?_upsert`).
-/
import AppSynthesis.Proofs.Ownership.References
import AppSynthesis.Proofs.Schema.Fields

namespace AppSynthesis

/-! ## The references -/

namespace OwnerReference

variable {ref : OwnerReference} {given refs : List OwnerReference}

/-- Two references are to the same owner. Neither the version nor the unique name counts. -/
structure Coreferent (a b : OwnerReference) : Prop where
  group : a.group = b.group
  kind : a.kind = b.kind
  name : a.name.same b.name = true

theorem refersTo_iff {a b : OwnerReference} : a.refersTo b = true ↔ a.Coreferent b := by
  unfold refersTo
  rw [Bool.and_eq_true, Bool.and_eq_true, beq_iff_eq, beq_iff_eq]
  exact ⟨fun ⟨⟨hgroup, hkind⟩, hname⟩ => ⟨hgroup, hkind, hname⟩,
    fun ⟨hgroup, hkind, hname⟩ => ⟨⟨hgroup, hkind⟩, hname⟩⟩

theorem refersTo_eq_false {a b : OwnerReference} : a.refersTo b = false ↔ ¬a.Coreferent b := by
  rw [← refersTo_iff, Bool.not_eq_true]

instance (a b : OwnerReference) : Decidable (a.Coreferent b) := decidable_of_iff _ refersTo_iff

/-- The references `refs` are those that were `given` with `ref` among them. -/
inductive Upserted (ref : OwnerReference) (given refs : List OwnerReference) : Prop
  /-- It is in the place of the first to the same owner. -/
  | replaced (before : List OwnerReference) (old : OwnerReference) (after : List OwnerReference)
      (hgiven : given = before ++ old :: after) (hold : old.Coreferent ref)
      (hbefore : ∀ r ∈ before, ¬r.Coreferent ref) (hrefs : refs = before ++ ref :: after)
  /-- It is at the end, for there was none to the same owner. -/
  | appended (hnone : ∀ r ∈ given, ¬r.Coreferent ref) (hrefs : refs = given ++ [ref])

theorem upsert_of_none (h : ∀ r ∈ given, ¬r.Coreferent ref) :
    ref.upsert given = given ++ [ref] := by
  induction given with
  | nil => rfl
  | cons r rest ih =>
    obtain ⟨hr, hrest⟩ := List.forall_mem_cons.mp h
    rw [upsert, if_neg (mt refersTo_iff.mp hr), ih hrest, List.cons_append]

theorem upsert_of_first {before after : List OwnerReference} {old : OwnerReference}
    (hbefore : ∀ r ∈ before, ¬r.Coreferent ref) (hold : old.Coreferent ref) :
    ref.upsert (before ++ old :: after) = before ++ ref :: after := by
  induction before with
  | nil => rw [List.nil_append, upsert, if_pos (refersTo_iff.mpr hold), List.nil_append]
  | cons r rest ih =>
    obtain ⟨hr, hrest⟩ := List.forall_mem_cons.mp hbefore
    rw [List.cons_append, upsert, if_neg (mt refersTo_iff.mp hr), ih hrest, List.cons_append]

theorem upsert_iff : Upserted ref given refs ↔ refs = ref.upsert given := by
  constructor
  · rintro (⟨before, old, after, rfl, hold, hbefore, rfl⟩ | ⟨hnone, rfl⟩)
    · exact (upsert_of_first hbefore hold).symm
    · exact (upsert_of_none hnone).symm
  · rintro rfl
    rcases hfind : given.find? (·.refersTo ref) with _ | old
    · have hnone : ∀ r ∈ given, ¬r.Coreferent ref := by simpa [refersTo_eq_false] using hfind
      exact .appended hnone (upsert_of_none hnone)
    · obtain ⟨hold, before, after, rfl, hbefore⟩ := List.find?_eq_some_iff_append.mp hfind
      have hbefore : ∀ r ∈ before, ¬r.Coreferent ref := by
        simpa [refersTo_eq_false] using hbefore
      have hold : old.Coreferent ref := refersTo_iff.mp hold
      exact .replaced before old after rfl hold hbefore (upsert_of_first hbefore hold)

end OwnerReference

/-! ## Giving control -/

variable {owner : Option Record} {app : App} {scheme : Scheme} {refs : List OwnerReference}

/-- Only a namespace that counts as given is compared, which the comparison tells by itself. -/
theorem controlOfRecord_app : controlOfRecord owner (some ⟨.app, app⟩) scheme = (do
    let g ← scheme.kindOfRecord owner
    let ns ← Record.member owner "namespace"
    checkNamespaces ns app.ns
    let name ← Record.member owner "name"
    let uid ← Record.member owner "uid"
    app.claim (.controlling g name uid)) := by
  have hobject : Record.member (some ⟨.app, app⟩) "namespace" = .ok app.ns := rfl
  unfold controlOfRecord
  refine bind_congr fun g => bind_congr fun ns => ?_
  rw [hobject]
  cases h : ns.isTrue <;> simp [checkNamespaces, h, bind, Except.bind]

/-- An owner is given control when its type is registered and has all the members that are
needed, its namespace is that of the App if it has one, and no other owner controls the App. -/
theorem controlOfRecord_eq_ok :
    controlOfRecord owner (some ⟨.app, app⟩) scheme = .ok refs ↔
      ∃ g ns name uid, scheme.kindOfRecord owner = .ok g ∧
        Record.member owner "namespace" = .ok ns ∧ checkNamespaces ns app.ns = .ok () ∧
        Record.member owner "name" = .ok name ∧ Record.member owner "uid" = .ok uid ∧
        app.claim (.controlling g name uid) = .ok refs := by
  rw [controlOfRecord_app]
  simp only [bind_eq_ok]
  constructor
  · rintro ⟨g, hg, ns, hns, _, hcheck, name, hname, uid, huid, hclaim⟩
    exact ⟨g, ns, name, uid, hg, hns, hcheck, hname, huid, hclaim⟩
  · rintro ⟨g, ns, name, uid, hg, hns, hcheck, hname, huid, hclaim⟩
    exact ⟨g, hg, ns, hns, (), hcheck, name, hname, uid, huid, hclaim⟩

/-- **What giving control of an App to an owner comes to.** The reference to the owner takes the
place of the first one to it, or comes last, and all others stay where they are. An App with
these references is controlled through it. To give control of the App to the owner once more
changes nothing, provided that the name of the owner equals itself, as all text does. -/
theorem controlOfRecord_upserted
    (h : controlOfRecord owner (some ⟨.app, app⟩) scheme = .ok refs) :
    ∃ g name uid, scheme.kindOfRecord owner = .ok g ∧ Record.member owner "name" = .ok name ∧
      Record.member owner "uid" = .ok uid ∧
      OwnerReference.Upserted (.controlling g name uid) (app.ownerReferences.getD []) refs ∧
      (∀ x : App, x.ownerReferences = some refs →
        x.controllerReference? = some (.controlling g name uid)) ∧
      (name.same name = true →
        controlOfRecord owner (some ⟨.app, { app with ownerReferences := some refs }⟩) scheme =
          .ok refs) := by
  obtain ⟨g, ns, name, uid, hg, hns, hcheck, hname, huid, hclaim⟩ := controlOfRecord_eq_ok.mp h
  obtain ⟨hfree, hrefs⟩ := App.claim_eq_ok.mp hclaim
  have hcontroller (x : App) (hx : x.ownerReferences = some refs) :
      x.controllerReference? = some (.controlling g name uid) := by
    unfold App.controllerReference?
    rw [hx, Option.getD_some, hrefs]
    exact OwnerReference.find?_upsert (by simp [OwnerReference.controlling]) hfree
  refine ⟨g, name, uid, hg, hname, huid, OwnerReference.upsert_iff.mpr hrefs, hcontroller,
    fun hself => ?_⟩
  have hsame : OwnerReference.SameOwner (.controlling g name uid) (.controlling g name uid) :=
    .of_eq rfl rfl rfl hself
  refine controlOfRecord_eq_ok.mpr ⟨g, ns, name, uid, hg, hns, hcheck, hname, huid, ?_⟩
  rw [App.claim_eq_ok]
  constructor
  · intro r hr
    rw [hcontroller _ rfl] at hr
    exact Option.some.inj hr ▸ hsame.refersTo
  · show refs = OwnerReference.upsert _ refs
    rw [hrefs, OwnerReference.upsert_upsert hsame]

/-- The first reference to the owner is replaced, although the one marked as controller comes
later and both are of another version. -/
theorem controlOfRecord_upserted_repeated :
    ∃ (install : PackageInstall) (app : App) (pod first marked second ref : OwnerReference),
      app.ownerReferences = some [pod, first, marked, second] ∧
      app.controllerReference? = some marked ∧ second.controller = some true ∧
      controlOfRecord (some ⟨.packageInstall, install⟩) (some ⟨.app, app⟩) .standard =
        .ok [pod, ref, marked, second] ∧
      (∀ x : App, x.ownerReferences = some [pod, ref, marked, second] →
        x.controllerReference? = some ref) ∧
      controlOfRecord (some ⟨.packageInstall, install⟩)
        (some ⟨.app, { app with ownerReferences := some [pod, ref, marked, second] }⟩) .standard =
        .ok [pod, ref, marked, second] := by
  let install : PackageInstall := { name := .str "web", ns := .str "apps", uid := .str "u-2" }
  let pod : OwnerReference := { apiVersion := "v1", kind := "Pod", name := .str "web" }
  let first : OwnerReference :=
    { apiVersion := "packaging.carvel.dev/v1", kind := "PackageInstall", name := .str "web" }
  let marked : OwnerReference := { first with uid := .str "u-1", controller := some true }
  let second : OwnerReference := { pod with controller := some true }
  let ref : OwnerReference := .controlling
    (.ofApiVersion "packaging.carvel.dev/v1alpha1" "PackageInstall") (.str "web") (.str "u-2")
  let app : App := { name := .str "web", ns := .str "apps",
                     ownerReferences := some [pod, first, marked, second] }
  have h : controlOfRecord (some ⟨.packageInstall, install⟩) (some ⟨.app, app⟩) .standard =
      .ok [pod, ref, marked, second] := toOption_eq_some.mp (by decide +kernel)
  obtain ⟨g, name, uid, hg, hname, huid, -, hcontroller, hagain⟩ := controlOfRecord_upserted h
  obtain rfl : .ofApiVersion "packaging.carvel.dev/v1alpha1" "PackageInstall" = g :=
    Except.ok.inj hg
  obtain rfl : .str "web" = name := Except.ok.inj hname
  obtain rfl : .str "u-2" = uid := Except.ok.inj huid
  exact ⟨install, app, pod, first, marked, second, ref, rfl, rfl, rfl, h, hcontroller,
    hagain (by decide)⟩

end AppSynthesis
