/-
AppSynthesis.Proofs.Resolution.Exact — which package an install means, or why it means none.

* `AsksFor` — the version that constraints ask for, and `asksFor_iff`, that there is one.
* `Package.Meets` — what a package has to be for an install to mean it.
* `Store.meeting` — the packages of a store that are so, in the order of the store.
* `choose_eq_some_iff`, `one_lt_versionsOf` — what the choice among packages and the look at
  their versions come to.
* `resolvePackage_exact` — all outcomes, each with its condition on those packages.

`Package.Meets` speaks of the fields of the install; that the candidates are the packages that
meet it (`candidates_eq_meeting`) is the only place where the filters of the search are taken
apart.
-/
import AppSynthesis.Proofs.Resolution
import AppSynthesis.Proofs.Schema.TextMap
import AppSynthesis.Proofs.Text.Blank
import AppSynthesis.Store.Basic

namespace AppSynthesis

/-! ## Versions -/

/-- Constraints ask for a version: it is left of them when the blanks around them are taken off,
then one equals sign before it, then the blanks around it. -/
def AsksFor (constraints version : String) : Prop :=
  ∃ inner, Text.Trimmed Text.isBlank constraints.toList inner ∧
    ((∃ rest, inner = '=' :: rest ∧ Text.Trimmed Text.isBlank rest version.toList) ∨
      (inner.head? ≠ some '=' ∧ version.toList = inner))

theorem asksFor_iff {constraints version : String} :
    AsksFor constraints version ↔ version = exactVersion constraints := by
  have htext (cs : List Char) : version = String.ofList cs ↔ version.toList = cs := by
    rw [← String.toList_inj, String.toList_ofList]
  unfold AsksFor exactVersion
  simp only [Text.trimmed_iff, exists_eq_left]
  generalize Text.trimBoth Text.isBlank constraints.toList = inner
  split
  · rename_i rest
    rw [htext]
    simp
  · rename_i hnone
    have hfirst : inner.head? ≠ some '=' := by
      intro h
      obtain ⟨rest, hrest⟩ := List.head?_eq_some_iff.mp h
      exact hnone rest hrest
    rw [htext]
    constructor
    · rintro (⟨rest, hrest, -⟩ | ⟨-, h⟩)
      · exact absurd hrest (hnone rest)
      · exact h
    · exact fun h => Or.inr ⟨hfirst, h⟩

/-! ## What an install asks for -/

/-- What a package has to be for an install to mean it: it has the name that is asked for, lies
in the namespace of the install or in the global one, and has the version that the constraints
ask for, if there are any. -/
structure Package.Meets (p : Package) (install : PackageInstall)
    (globalNamespace : Option String) : Prop where
  refName : ∃ refName, install.refName? = some refName ∧ p.refName.same (.str refName) = true
  ns : p.ns.agrees install.ns = true ∨ p.ns.same (globalNamespace.elim .null .str) = true
  version : ∀ c, install.constraints? = some c → c ≠ "" → AsksFor c p.version

variable {install : PackageInstall} {globalNamespace : Option String}

theorem Package.isVisible_iff {p : Package} {ns : Value} : p.isVisible ns globalNamespace = true ↔
    p.ns.agrees ns = true ∨ p.ns.same (globalNamespace.elim .null .str) = true := by
  cases globalNamespace <;> simp [isVisible]

theorem Package.satisfies_iff {p : Package} : p.satisfies install.constraint? = true ↔
    ∀ c, install.constraints? = some c → c ≠ "" → AsksFor c p.version := by
  unfold PackageInstall.constraint? satisfies
  rcases install.constraints? with _ | c
  · simp
  · by_cases hc : c = ""
    · simp [hc]
    · simp [hc, asksFor_iff]

theorem Package.meets_iff {p : Package} {refName : String} (h : install.refName? = some refName) :
    p.Meets install globalNamespace ↔ (p.refName.same (.str refName) &&
      p.isVisible install.ns globalNamespace && p.satisfies install.constraint?) = true := by
  rw [Bool.and_eq_true, Bool.and_eq_true, isVisible_iff, satisfies_iff]
  constructor
  · rintro ⟨⟨refName', h', hsame⟩, hns, hversion⟩
    obtain rfl := Option.some.inj (h.symm.trans h')
    exact ⟨⟨hsame, hns⟩, hversion⟩
  · rintro ⟨⟨hsame, hns⟩, hversion⟩
    exact ⟨⟨refName, h, hsame⟩, hns, hversion⟩

instance (p : Package) : Decidable (p.Meets install globalNamespace) :=
  match h : install.refName? with
  | none => isFalse fun hmeets => nomatch h.symm.trans hmeets.refName.choose_spec.1
  | some _ => decidable_of_iff _ (Package.meets_iff h).symm

/-- The packages of a store that an install may mean, in order. -/
def Store.meeting (s : Store) (install : PackageInstall) (globalNamespace : Option String) :
    List Package :=
  s.packages.filter fun p => p.Meets install globalNamespace

theorem candidates_eq_meeting {s : Store} {refName : String}
    (h : install.refName? = some refName) :
    candidates s.packages install refName globalNamespace = s.meeting install globalNamespace := by
  refine List.filter_congr fun p _ => ?_
  rw [Bool.eq_iff_iff, decide_eq_true_iff, Package.meets_iff h]

/-! ## The choice -/

theorem choose_eq_none_iff {ns : Value} {found : List Package} :
    choose ns found = none ↔ found = [] := by
  unfold choose
  rw [Option.orElse_eq_orElse, Option.orElse_eq_or, Option.or_eq_none_iff, List.head?_eq_none_iff,
    and_iff_right_iff_imp]
  rintro rfl
  rfl

/-- A package comes before the others: it is the first in a namespace, or the first of all if
there is none in the namespace. -/
def Package.Precedes (p : Package) (ns : Value) (found : List Package) : Prop :=
  ∃ before after, found = before ++ p :: after ∧
    ((p.ns.same ns = true ∧ ∀ q ∈ before, q.ns.same ns = false) ∨
      (before = [] ∧ ∀ q ∈ found, q.ns.same ns = false))

theorem choose_eq_some_iff {ns : Value} {found : List Package} {p : Package} :
    choose ns found = some p ↔ p.Precedes ns found := by
  unfold choose Package.Precedes
  rw [Option.orElse_eq_orElse, Option.orElse_eq_or, Option.or_eq_some_iff,
    List.find?_eq_some_iff_append, List.find?_eq_none]
  constructor
  · rintro (⟨hp, before, after, hfound, hbefore⟩ | ⟨hnone, hfirst⟩)
    · exact ⟨before, after, hfound, Or.inl ⟨hp, by simpa using hbefore⟩⟩
    · obtain ⟨after, hfound⟩ := List.head?_eq_some_iff.mp hfirst
      exact ⟨[], after, hfound, Or.inr ⟨rfl, by simpa using hnone⟩⟩
  · rintro ⟨before, after, hfound, ⟨hp, hbefore⟩ | ⟨rfl, hnone⟩⟩
    · exact Or.inl ⟨hp, before, after, hfound, by simpa using hbefore⟩
    · exact Or.inr ⟨by simpa using hnone, by rw [hfound]; rfl⟩

/-! ## The versions -/

theorem mem_versionsOf {packages : List Package} {version : String} :
    version ∈ versionsOf packages ↔ ∃ p ∈ packages, p.version = version := by
  unfold versionsOf sortTexts
  rw [List.mem_mergeSort, List.mem_eraseDups, List.mem_map]

theorem nodup_eraseDups (texts : List String) : texts.eraseDups.Nodup := by
  match texts with
  | [] => exact List.nodup_nil
  | text :: rest =>
    rw [List.eraseDups_cons, List.nodup_cons]
    exact ⟨by simp [List.mem_eraseDups], nodup_eraseDups _⟩
termination_by texts.length
decreasing_by exact Nat.lt_succ_of_le (List.length_filter_le _ _)

/-- Versions are listed once each and in order. -/
theorem versionsOf_sorted (packages : List Package) : (versionsOf packages).Pairwise (· < ·) :=
  strict_sortBy id (nodup_eraseDups _)

/-- More than one version is listed when two packages differ in theirs. -/
theorem one_lt_versionsOf {packages : List Package} : 1 < (versionsOf packages).length ↔
    ∃ p ∈ packages, ∃ q ∈ packages, p.version ≠ q.version := by
  have hsorted := versionsOf_sorted packages
  have hmem := @mem_versionsOf packages
  generalize versionsOf packages = versions at *
  constructor
  · intro h
    obtain ⟨v, w, rest, rfl⟩ : ∃ v w rest, versions = v :: w :: rest := by
      match versions, h with
      | v :: w :: rest, _ => exact ⟨v, w, rest, rfl⟩
    obtain ⟨p, hp, hv⟩ := hmem.mp (List.mem_cons_self : v ∈ v :: w :: rest)
    obtain ⟨q, hq, hw⟩ := hmem.mp (List.mem_cons_of_mem v List.mem_cons_self : w ∈ v :: w :: rest)
    refine ⟨p, hp, q, hq, ?_⟩
    intro heq
    have hlt := List.rel_of_pairwise_cons hsorted (List.mem_cons_self : w ∈ w :: rest)
    rw [← hv, ← hw, heq] at hlt
    exact String.lt_irrefl _ hlt
  · rintro ⟨p, hp, q, hq, hne⟩
    by_contra hle
    have hp' := hmem.mpr ⟨p, hp, rfl⟩
    have hq' := hmem.mpr ⟨q, hq, rfl⟩
    match versions, hle with
    | [], _ => cases hp'
    | [v], _ => exact hne ((List.mem_singleton.mp hp').trans (List.mem_singleton.mp hq').symm)
    | _ :: _ :: _, hle => simp at hle

/-! ## Outcomes -/

/-- Without a name to ask for nothing else is looked at. -/
theorem resolvePackage_eq_noPackageRef {packages : List Package} :
    resolvePackage packages install globalNamespace =
        .error (.input (.noPackageRef install.namespacedName)) ↔
      install.refName? = none ∨ install.refName? = some "" := by
  unfold resolvePackage
  rcases install.refName? with _ | refName
  · simp
  · by_cases hempty : refName = ""
    · simp [hempty]
    · have hne : refName.isEmpty = false := by simpa using hempty
      simp only [hne, Bool.false_eq_true, if_false, Option.some.injEq, reduceCtorEq, hempty,
        or_self, iff_false]
      intro h
      split at h
      · cases h
      · split at h
        · cases h
        · split at h <;> cases h

/-- An install that asks for a name is told what the candidates come to. -/
def outcomeOf (install : PackageInstall) (refName : String) (found : List Package) :
    Except Error Package :=
  match choose install.ns found with
  | none => .error (.noPackage refName (install.constraint?.getD "*") install.namespacedName)
  | some package =>
    if 1 < (versionsOf found).length then
      .error (.input (.severalVersions install.namespacedName refName (versionsOf found)))
    else .ok package

theorem resolvePackage_of_name {packages : List Package} {refName : String}
    (hname : install.refName? = some refName) (hne : refName ≠ "")
    (hatomic : install.ns.isAtomic = true) :
    resolvePackage packages install globalNamespace =
      outcomeOf install refName (candidates packages install refName globalNamespace) := by
  have hempty : refName.isEmpty = false := by simpa using hne
  unfold resolvePackage
  simp only [hname, hempty, hatomic, Bool.not_true, Bool.false_eq_true, if_false]
  rfl

/-- **Which package an install means, or why it means none.** It has to ask for one by name.
Then all depends on the packages of the store that meet what it asks for: there is none, or two
of them differ in their version, or the one that comes before the others is meant. Other
packages make no difference. A namespace that is a list or a map cannot be looked for. -/
theorem resolvePackage_exact (s : Store) (install : PackageInstall)
    (globalNamespace : Option String) :
    (resolvePackage s.packages install globalNamespace =
        .error (.input (.noPackageRef install.namespacedName)) ↔
      install.refName? = none ∨ install.refName? = some "") ∧
    (∀ refName, install.refName? = some refName → refName ≠ "" → install.ns.isAtomic = true →
      (resolvePackage s.packages install globalNamespace =
          .error (.noPackage refName (install.constraint?.getD "*") install.namespacedName) ↔
        s.meeting install globalNamespace = []) ∧
      (resolvePackage s.packages install globalNamespace =
          .error (.input (.severalVersions install.namespacedName refName
            (versionsOf (s.meeting install globalNamespace)))) ↔
        ∃ p ∈ s.meeting install globalNamespace, ∃ q ∈ s.meeting install globalNamespace,
          p.version ≠ q.version) ∧
      (s.meeting install globalNamespace ≠ [] →
        (∀ p ∈ s.meeting install globalNamespace, ∀ q ∈ s.meeting install globalNamespace,
          p.version = q.version) →
        ∃ p, resolvePackage s.packages install globalNamespace = .ok p ∧
          p.Precedes install.ns (s.meeting install globalNamespace))) ∧
    (∀ t : Store, t.meeting install globalNamespace = s.meeting install globalNamespace →
      resolvePackage t.packages install globalNamespace =
        resolvePackage s.packages install globalNamespace) := by
  refine ⟨?_, fun refName hname hne hatomic => ?_, fun t hsame => ?_⟩
  · exact resolvePackage_eq_noPackageRef
  · rw [resolvePackage_of_name hname hne hatomic, candidates_eq_meeting hname]
    generalize s.meeting install globalNamespace = found
    unfold outcomeOf
    rcases hchoose : choose install.ns found with _ | package
    · obtain rfl := choose_eq_none_iff.mp hchoose
      simp
    · have hfound : found ≠ [] := by
        rintro rfl
        cases hchoose
      dsimp only
      split
      · rename_i hseveral
        obtain ⟨p, hp, q, hq, hdiffer⟩ := one_lt_versionsOf.mp hseveral
        refine ⟨by simp [hfound], ?_, fun _ hagree => absurd (hagree p hp q hq) hdiffer⟩
        exact iff_of_true rfl ⟨p, hp, q, hq, hdiffer⟩
      · rename_i hone
        have hagree := mt one_lt_versionsOf.mpr hone
        refine ⟨by simp [hfound], iff_of_false (fun h => nomatch h) hagree, fun _ _ => ?_⟩
        exact ⟨package, rfl, choose_eq_some_iff.mp hchoose⟩
  · exact resolvePackage_congr fun refName hname => by
      rw [candidates_eq_meeting hname, candidates_eq_meeting hname, hsame]

/-- A package in the namespace of the install is meant although a global one was there before;
that it is does not help when the two differ in their version and no constraints tell which. -/
theorem resolvePackage_exact_shadowed :
    ∃ (s : Store) (exact any : PackageInstall) (shared own : Package),
      exact.constraints? = some " = 1.0.0 " ∧ any.constraints? = none ∧
      s.packages.length = 3 ∧ s.meeting exact (some "global") = [shared, own] ∧
      shared.ns = .str "global" ∧ own.ns = .str "apps" ∧
      resolvePackage s.packages exact (some "global") = .ok own ∧
      resolvePackage s.packages any (some "global") =
        .error (.input (.severalVersions "apps/web" "p" ["1.0.0", "2.0.0"])) := by
  let package (name ns version : String) : Package :=
    { name := .str name, ns := .str ns, refName := .str "p", version }
  let install (selection : Option VersionSelection) : PackageInstall :=
    { name := .str "web", ns := .str "apps"
      spec := { packageRef := some { refName := "p", versionSelection := selection } } }
  let other := package "p2" "global" "2.0.0"
  let shared := package "p1" "global" "1.0.0"
  let own := package "p1" "apps" "1.0.0"
  let exact := install (some { constraints := some " = 1.0.0 " })
  let any := install none
  let objects : List Resource := [.package other, .package shared, .package own]
  let s : Store := { objects := objects.map fun obj => (obj.id, obj) }
  have hexact : s.meeting exact (some "global") = [shared, own] := by decide +kernel
  have hany : s.meeting any (some "global") = [other, shared, own] := by decide +kernel
  have hversions : versionsOf [other, shared, own] = ["1.0.0", "2.0.0"] := by
    simp [versionsOf, sortTexts, other, shared, own, package, List.eraseDups_cons, List.mergeSort]
  obtain ⟨p, hp, before, after, hfound, hplace⟩ :=
    ((resolvePackage_exact s exact (some "global")).2.1 "p" rfl (by decide) rfl).2.2
      (by simp [hexact]) (by simp [hexact, shared, own, package])
  have hseveral := ((resolvePackage_exact s any (some "global")).2.1 "p" rfl (by decide) rfl).2.1.mpr
    ⟨other, by simp [hany], own, by simp [hany], by decide⟩
  rw [hexact] at hfound hplace
  rw [hany, hversions] at hseveral
  have hmem : p ∈ [shared, own] := hfound ▸ List.mem_append_right _ List.mem_cons_self
  have hown : p = own := by
    rcases List.mem_cons.mp hmem with rfl | hmem
    · rcases hplace with ⟨hlocal, -⟩ | ⟨-, hnone⟩
      · exact absurd hlocal (by decide)
      · exact absurd (hnone own (by simp)) (by decide)
    · exact List.mem_singleton.mp hmem
  exact ⟨s, exact, any, shared, own, rfl, rfl, rfl, hexact, rfl, rfl, hown ▸ hp, hseveral⟩

end AppSynthesis
