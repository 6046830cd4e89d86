/-
AppSynthesis.Proofs.Resolution.Order — what the order of a store means for the package that is
found.

* `Store.SameObjects` — two stores hold the same objects, in whatever order.
* `Package.Alike` — packages that no search tells apart. Of stores with the same objects each
  has one for every package of the other (`Store.SameObjects.package`).
* `preferred` — the packages that only their order is left to decide between.
* `resolvePackage_order` — the order of a store makes no difference to a search that fails, nor
  to one that leaves a single package to prefer. Wherever it leaves two it does.

Everything but the last step of a search looks at the packages that meet what an install asks
for as a set: whether there are any, and which versions they have. The last step takes the first
of those that are preferred. When the package it took is deleted and added again, then it comes
last, and another one is found (`Store.Sound.readd`).
-/
import Mathlib.Data.List.Sort
import AppSynthesis.Proofs.Resolution.Exact
import AppSynthesis.Proofs.Store.Sound

namespace AppSynthesis

/-! ## Packages that no search tells apart -/

namespace Package

/-- What a search looks at in two packages is the same. -/
structure Alike (p q : Package) : Prop where
  refName : ∀ r, p.refName = .str r ↔ q.refName = .str r
  ns : p.ns.agrees q.ns = true
  version : p.version = q.version

variable {p q : Package}

theorem alike_of_same (h : Package.schema.same p q = true) : p.Alike q := by
  have hfields : (p.name.agrees q.name && (p.ns.agrees q.ns && (p.refName.agrees q.refName &&
      (p.version == q.version && (AppSpec.schema.same p.template q.template && true))))) = true := h
  simp only [Bool.and_eq_true, beq_iff_eq] at hfields
  obtain ⟨-, hns, hrefName, hversion, -⟩ := hfields
  refine ⟨fun r => ⟨fun hp => ?_, fun hq => ?_⟩, hns, hversion⟩
  · rw [hp] at hrefName
    exact Value.str_agrees.mp hrefName
  · rw [hq] at hrefName
    exact Value.agrees_str.mp hrefName

variable {install : PackageInstall} {globalNamespace : Option String}

/-- They meet what an install asks for both or neither. -/
theorem Alike.meets (h : p.Alike q) (hp : p.ns.isAtomic = true) (hq : q.ns.isAtomic = true)
    (hinstall : install.ns.isAtomic = true) (hmeets : p.Meets install globalNamespace) :
    q.Meets install globalNamespace where
  refName := by
    obtain ⟨refName, hname, hsame⟩ := hmeets.refName
    exact ⟨refName, hname, Value.same_str.mpr ((h.refName refName).mp (Value.same_str.mp hsame))⟩
  ns := by
    have hglobal : (globalNamespace.elim Value.null Value.str).isAtomic = true := by
      cases globalNamespace <;> rfl
    rw [← Value.agrees_congr hp hq hinstall h.ns, ← Value.same_congr hp hq hglobal h.ns]
    exact hmeets.ns
  version := h.version ▸ hmeets.version

end Package

/-! ## Stores with the same objects -/

namespace Store

/-- Two stores hold the same objects: what is stored in one is found in the other, or something
equal to it is. -/
structure SameObjects (s t : Store) : Prop where
  left : ∀ e ∈ s.objects, ∃ obj, t.find? e.1 = some obj ∧ (e.2 = obj ∨ e.2.same obj = true)
  right : ∀ e ∈ t.objects, ∃ obj, s.find? e.1 = some obj ∧ (e.2 = obj ∨ e.2.same obj = true)

variable {s t : Store}

theorem SameObjects.symm (h : s.SameObjects t) : t.SameObjects s := ⟨h.right, h.left⟩

theorem mem_packages {p : Package} : p ∈ s.packages ↔ ∃ id, (id, .package p) ∈ s.objects := by
  unfold packages
  rw [List.mem_filterMap]
  constructor
  · rintro ⟨obj, hobj, hp⟩
    obtain ⟨e, he, rfl⟩ := List.mem_map.mp hobj
    obtain ⟨id, obj⟩ := e
    cases obj with
    | package x =>
      obtain rfl := Option.some.inj hp
      exact ⟨id, he⟩
    | _ => cases hp
  · rintro ⟨id, he⟩
    exact ⟨.package p, List.mem_map.mpr ⟨_, he, rfl⟩, rfl⟩

theorem Sound.atomic_ns (hs : s.Sound) {p : Package} (h : p ∈ s.packages) :
    p.ns.isAtomic = true := by
  obtain ⟨id, hmem⟩ := mem_packages.mp h
  exact (ResourceId.isAtomic_iff.mp (hs.atomic _ hmem).2).1

/-- For every package of one store the other has one that no search tells from it. -/
theorem SameObjects.package (h : s.SameObjects t) (hs : s.Sound) {p : Package}
    (hp : p ∈ s.packages) :
    ∃ q ∈ t.packages, p.Alike q ∧ (p = q ∨ Package.schema.same p q = true) := by
  obtain ⟨id, hmem⟩ := mem_packages.mp hp
  obtain ⟨obj, hfind, hequal⟩ := h.left _ hmem
  obtain ⟨id', hmem', -⟩ := find?_mem hfind
  rcases hequal with rfl | hsame
  · have hns := hs.atomic_ns hp
    exact ⟨p, mem_packages.mpr ⟨id', hmem'⟩,
      ⟨fun _ => Iff.rfl, (Value.agrees_iff hns hns).mpr rfl, rfl⟩, Or.inl rfl⟩
  · cases obj with
    | package q =>
      exact ⟨q, mem_packages.mpr ⟨id', hmem'⟩, Package.alike_of_same hsame, Or.inr hsame⟩
    | _ => cases hsame

variable {install : PackageInstall} {globalNamespace : Option String}

theorem mem_meeting {p : Package} : p ∈ s.meeting install globalNamespace ↔
    p ∈ s.packages ∧ p.Meets install globalNamespace := by
  unfold meeting
  rw [List.mem_filter, decide_eq_true_iff]

theorem SameObjects.meeting (h : s.SameObjects t) (hs : s.Sound) (ht : t.Sound)
    (hinstall : install.ns.isAtomic = true) {p : Package}
    (hp : p ∈ s.meeting install globalNamespace) :
    ∃ q ∈ t.meeting install globalNamespace, p.Alike q ∧
      (p = q ∨ Package.schema.same p q = true) := by
  obtain ⟨hmem, hmeets⟩ := mem_meeting.mp hp
  obtain ⟨q, hq, halike, hequal⟩ := h.package hs hmem
  exact ⟨q, mem_meeting.mpr ⟨hq, halike.meets (hs.atomic_ns hmem) (ht.atomic_ns hq) hinstall
    hmeets⟩, halike, hequal⟩

/-- The versions are the same, for they are listed in order. -/
theorem SameObjects.versionsOf (h : s.SameObjects t) (hs : s.Sound) (ht : t.Sound)
    (hinstall : install.ns.isAtomic = true) :
    versionsOf (s.meeting install globalNamespace) =
      versionsOf (t.meeting install globalNamespace) := by
  refine (versionsOf_sorted _).eq_of_mem_iff (versionsOf_sorted _) fun version => ?_
  rw [mem_versionsOf, mem_versionsOf]
  constructor
  · rintro ⟨p, hp, rfl⟩
    obtain ⟨q, hq, halike, -⟩ := h.meeting hs ht hinstall hp
    exact ⟨q, hq, halike.version.symm⟩
  · rintro ⟨q, hq, rfl⟩
    obtain ⟨p, hp, halike, -⟩ := h.symm.meeting ht hs hinstall hq
    exact ⟨p, hp, halike.version.symm⟩

theorem SameObjects.meeting_eq_nil (h : s.SameObjects t) (hs : s.Sound) (ht : t.Sound)
    (hinstall : install.ns.isAtomic = true) (hnil : t.meeting install globalNamespace = []) :
    s.meeting install globalNamespace = [] := by
  refine List.eq_nil_iff_forall_not_mem.mpr fun p hp => ?_
  obtain ⟨q, hq, -⟩ := h.meeting hs ht hinstall hp
  rw [hnil] at hq
  cases hq

end Store

/-! ## Preferred packages -/

/-- The packages between which only their order is left to decide: those that lie in a
namespace, or all if there are none. -/
def preferred (ns : Value) (found : List Package) : List Package :=
  if found.any fun p => p.ns.same ns then found.filter fun p => p.ns.same ns else found

theorem choose_eq_head? (ns : Value) (found : List Package) :
    choose ns found = (preferred ns found).head? := by
  unfold choose preferred
  rw [Option.orElse_eq_orElse, Option.orElse_eq_or, ← List.head?_filter]
  split
  · rename_i hany
    obtain ⟨p, hp, hns⟩ := List.any_eq_true.mp hany
    have hne : found.filter (fun p => p.ns.same ns) ≠ [] :=
      List.ne_nil_of_mem (List.mem_filter.mpr ⟨hp, hns⟩)
    rw [List.head?_eq_some_head hne, Option.some_or]
  · rename_i hnone
    rw [List.filter_eq_nil_iff.mpr (by simpa using hnone), List.head?_nil, Option.none_or]

theorem mem_preferred {ns : Value} {found : List Package} {p : Package} :
    p ∈ preferred ns found ↔
      p ∈ found ∧ (p.ns.same ns = true ∨ ∀ q ∈ found, q.ns.same ns = false) := by
  unfold preferred
  split
  · rename_i hany
    obtain ⟨q, hq, hns⟩ := List.any_eq_true.mp hany
    have hsome : ¬∀ q ∈ found, q.ns.same ns = false := fun hnone => by
      rw [hnone q hq] at hns
      cases hns
    rw [List.mem_filter, or_iff_left hsome]
  · rename_i hnone
    rw [and_iff_left (Or.inr (by simpa using hnone))]

theorem preferred_perm {ns : Value} {found found' : List Package} (h : found.Perm found') :
    (preferred ns found).Perm (preferred ns found') := by
  unfold preferred
  rw [h.any_eq]
  split
  · exact h.filter _
  · exact h

/-- Of a search that fails nothing depends on an order. -/
theorem outcomeOf_eq_error_iff {install : PackageInstall} {refName : String}
    {found : List Package} {e : Error} : outcomeOf install refName found = .error e ↔
      (found = [] ∧ e = .noPackage refName (install.constraint?.getD "*") install.namespacedName) ∨
      (found ≠ [] ∧ 1 < (versionsOf found).length ∧
        e = .input (.severalVersions install.namespacedName refName (versionsOf found))) := by
  unfold outcomeOf
  rcases hchoose : choose install.ns found with _ | p
  · simp [choose_eq_none_iff.mp hchoose, eq_comm]
  · have hne : found ≠ [] := by
      rintro rfl
      cases hchoose
    dsimp only
    split
    · rename_i hlength
      simp [hne, hlength, eq_comm]
    · rename_i hlength
      simp [hne, hlength]

section

variable {s t : Store} {install : PackageInstall} {globalNamespace : Option String}

/-- Stores with the same objects fail a search over the same error. -/
theorem Store.SameObjects.resolvePackage_error (h : s.SameObjects t) (hs : s.Sound) (ht : t.Sound)
    {e : Error} (he : resolvePackage s.packages install globalNamespace = .error e) :
    resolvePackage t.packages install globalNamespace = .error e := by
  by_cases hname : install.refName? = none ∨ install.refName? = some ""
  · have hnoname (packages : List Package) : resolvePackage packages install globalNamespace =
        .error (.input (.noPackageRef install.namespacedName)) :=
      resolvePackage_eq_noPackageRef.mpr hname
    rw [hnoname] at he ⊢
    exact he
  · obtain ⟨hnone, hempty⟩ := not_or.mp hname
    obtain ⟨refName, hrefName⟩ := Option.ne_none_iff_exists'.mp hnone
    have hne : refName ≠ "" := fun h => hempty (h ▸ hrefName)
    by_cases hatomic : install.ns.isAtomic = true
    · rw [resolvePackage_of_name hrefName hne hatomic, candidates_eq_meeting hrefName,
        outcomeOf_eq_error_iff] at he ⊢
      have hnil : t.meeting install globalNamespace = [] ↔
          s.meeting install globalNamespace = [] :=
        ⟨h.meeting_eq_nil hs ht hatomic, h.symm.meeting_eq_nil ht hs hatomic⟩
      rw [ne_eq, hnil, ← h.versionsOf hs ht hatomic]
      exact he
    · have hwrong (packages : List Package) :
          resolvePackage packages install globalNamespace = .error (.fault .wrongKind) := by
        unfold resolvePackage
        simp [hrefName, hne, hatomic]
      rw [hwrong] at he ⊢
      exact he

/-- What is found is the first of the packages that are preferred. -/
theorem head?_of_resolvePackage {p : Package}
    (h : resolvePackage s.packages install globalNamespace = .ok p) :
    install.ns.isAtomic = true ∧
      (preferred install.ns (s.meeting install globalNamespace)).head? = some p := by
  obtain ⟨refName, hname, -, hatomic, hchoose, -⟩ := resolvePackage_eq_ok.mp h
  rw [candidates_eq_meeting hname, choose_eq_head?] at hchoose
  exact ⟨hatomic, hchoose⟩

theorem resolvePackage_of_head? (refName : String) {p : Package}
    (hname : install.refName? = some refName) (hne : refName ≠ "")
    (hatomic : install.ns.isAtomic = true)
    (hhead : (preferred install.ns (s.meeting install globalNamespace)).head? = some p)
    (hversions : ∀ q ∈ s.meeting install globalNamespace, q.version = p.version) :
    resolvePackage s.packages install globalNamespace = .ok p := by
  have hsingle : ¬1 < (versionsOf (s.meeting install globalNamespace)).length := by
    rw [one_lt_versionsOf]
    rintro ⟨q, hq, q', hq', hdiffer⟩
    exact hdiffer ((hversions q hq).trans (hversions q' hq').symm)
  rw [resolvePackage_of_name hname hne hatomic, candidates_eq_meeting hname]
  unfold outcomeOf
  rw [choose_eq_head?, hhead]
  exact if_neg hsingle

theorem preferred_of_resolvePackage {p : Package}
    (hone : (preferred install.ns (s.meeting install globalNamespace)).length ≤ 1)
    (hp : resolvePackage s.packages install globalNamespace = .ok p) :
    preferred install.ns (s.meeting install globalNamespace) = [p] := by
  obtain ⟨rest, hrest⟩ := List.head?_eq_some_iff.mp (head?_of_resolvePackage hp).2
  rw [hrest, List.length_cons] at hone
  rw [hrest, List.eq_nil_of_length_eq_zero (Nat.le_zero.mp (Nat.le_of_succ_le_succ hone))]

/-- The preferred packages of stores with the same objects are the same, too. -/
theorem Store.SameObjects.exists_preferred (h : s.SameObjects t) (hs : s.Sound) (ht : t.Sound)
    (hinstall : install.ns.isAtomic = true) {p : Package}
    (hp : p ∈ preferred install.ns (s.meeting install globalNamespace)) :
    ∃ q ∈ preferred install.ns (t.meeting install globalNamespace),
      p = q ∨ Package.schema.same p q = true := by
  have hlocal {s t : Store} (h : s.SameObjects t) (hs : s.Sound) (ht : t.Sound) {p : Package}
      (hp : p ∈ s.meeting install globalNamespace) :
      ∃ q ∈ t.meeting install globalNamespace, p.ns.same install.ns = q.ns.same install.ns ∧
        (p = q ∨ Package.schema.same p q = true) := by
    obtain ⟨q, hq, halike, hequal⟩ := h.meeting hs ht hinstall hp
    exact ⟨q, hq, Value.same_congr (hs.atomic_ns (mem_meeting.mp hp).1)
      (ht.atomic_ns (mem_meeting.mp hq).1) hinstall halike.ns, hequal⟩
  obtain ⟨hmem, hplace⟩ := mem_preferred.mp hp
  obtain ⟨q, hq, hcongr, hequal⟩ := hlocal h hs ht hmem
  refine ⟨q, mem_preferred.mpr ⟨hq, ?_⟩, hequal⟩
  rcases hplace with hlocal' | hnone
  · exact Or.inl (hcongr ▸ hlocal')
  · refine Or.inr fun q' hq' => ?_
    obtain ⟨p', hp', hcongr', -⟩ := hlocal h.symm ht hs hq'
    rw [hcongr', hnone p' hp']

/-- A single package that is preferred is found in every store with the same objects. -/
theorem Store.SameObjects.resolvePackage_ok (h : s.SameObjects t) (hs : s.Sound) (ht : t.Sound)
    (hone : (preferred install.ns (s.meeting install globalNamespace)).length ≤ 1) {p : Package}
    (hp : resolvePackage s.packages install globalNamespace = .ok p) :
    ∃ q, resolvePackage t.packages install globalNamespace = .ok q ∧
      (q = p ∨ Package.schema.same q p = true) := by
  obtain ⟨hatomic, -⟩ := head?_of_resolvePackage hp
  rcases hq : resolvePackage t.packages install globalNamespace with e | q
  · cases hp.symm.trans (h.symm.resolvePackage_error ht hs hq)
  · obtain ⟨-, hhead'⟩ := head?_of_resolvePackage hq
    obtain ⟨p', hp', hequal⟩ := h.symm.exists_preferred ht hs hatomic (List.mem_of_mem_head? hhead')
    rw [preferred_of_resolvePackage hone hp, List.mem_singleton] at hp'
    subst hp'
    exact ⟨q, rfl, hequal⟩

/-- If they hold them identically, then what is found is identical. -/
theorem Store.SameObjects.resolvePackage_perm (h : s.SameObjects t) (hs : s.Sound) (ht : t.Sound)
    (hone : (preferred install.ns (s.meeting install globalNamespace)).length ≤ 1)
    (hperm : t.objects.Perm s.objects) :
    resolvePackage t.packages install globalNamespace =
      resolvePackage s.packages install globalNamespace := by
  rcases hp : resolvePackage s.packages install globalNamespace with e | p
  · exact h.resolvePackage_error hs ht hp
  · obtain ⟨q, hq, -⟩ := h.resolvePackage_ok hs ht hone hp
    obtain ⟨-, hhead⟩ := head?_of_resolvePackage hq
    have hmeeting : (t.meeting install globalNamespace).Perm (s.meeting install globalNamespace) :=
      ((hperm.map _).filterMap _).filter _
    have hmem := (preferred_perm hmeeting).subset (List.mem_of_mem_head? hhead)
    rw [preferred_of_resolvePackage hone hp, List.mem_singleton] at hmem
    rw [hq, hmem]

end

/-! ## Adding a package again -/

namespace Store

theorem place_new {id : ResourceId} {obj : Resource} :
    ∀ {objects : List (ResourceId × Resource)}, (∀ e ∈ objects, e.1.same id = false) →
      place id obj objects = objects ++ [(id, obj)]
  | [], _ => rfl
  | e :: rest, h => by
    obtain ⟨he, hrest⟩ := List.forall_mem_cons.mp h
    rw [place, he, place_new hrest]
    rfl

/-- The store after a resource was deleted and added again. -/
def readd (s : Store) (obj : Resource) : Store :=
  (Change.add obj).apply ((Change.delete obj.id).apply s)

theorem Reached.readd {s : Store} (hs : s.Reached Change.any) (obj : Resource) :
    (s.readd obj).Reached Change.any :=
  .change _ trivial (.change _ trivial hs)

variable {s : Store} {id : ResourceId} {p : Package} {l r : List (ResourceId × Resource)}

/-- Between the identities of one store there are no others that are the same. -/
theorem Sound.other (hs : s.Sound) {obj : Resource} (h : s.objects = l ++ (id, obj) :: r) :
    ∀ e ∈ l ++ r, e.1.same obj.id = false := by
  intro e he
  have hmem : (id, obj) ∈ s.objects := h ▸ List.mem_append_right l List.mem_cons_self
  have hmem' : e ∈ s.objects := by
    rw [h]
    exact ((List.sublist_cons_self (id, obj) r).append_left l).subset he
  obtain ⟨hid, hobj⟩ := hs.atomic _ hmem
  have hdistinct := hs.distinct
  rw [h, List.map_append, List.map_cons, List.pairwise_append, List.pairwise_cons] at hdistinct
  rw [← ResourceId.same_congr (hs.atomic _ hmem').1 hid hobj (hs.keyed _ hmem)]
  rcases List.mem_append.mp he with hl | hr
  · exact hdistinct.2.2 e.1 (List.mem_map_of_mem hl) id List.mem_cons_self
  · have hother := hdistinct.2.1.1 e.1 (List.mem_map_of_mem hr)
    rw [Bool.eq_false_iff] at hother ⊢
    exact fun hsame => hother (ResourceId.same_symm (hs.atomic _ hmem').1 hid hsame)

/-- **A package that is deleted and added again comes last.** -/
theorem Sound.readd (hs : s.Sound) (h : s.objects = l ++ (id, .package p) :: r) :
    (s.readd (.package p)).objects = l ++ r ++ [((Resource.package p).id, .package p)] := by
  have hmem : (id, .package p) ∈ s.objects := h ▸ List.mem_append_right l List.mem_cons_self
  have hobj := (hs.atomic _ hmem).2
  have hkey := hs.keyed _ hmem
  have hother := hs.other h
  have hleft : ∀ e ∈ l, ¬e.1.same (Resource.package p).id = true := fun e he => by
    simp [hother e (List.mem_append_left r he)]
  have hdeleted : (Change.delete (Resource.package p).id).apply s =
      { s with objects := l ++ r } := by
    have herase : s.objects.eraseP (fun e => e.1.same (Resource.package p).id) = l ++ r := by
      rw [h, List.eraseP_append_right _ hleft]
      exact congrArg (l ++ ·) (List.eraseP_cons_of_pos hkey)
    simp only [Change.apply, delete, hs.find?_of_mem hmem hobj hkey, hobj, Bool.not_true,
      Bool.false_eq_true, if_false, herase]
  have hnone : ({ s with objects := l ++ r } : Store).find? (Resource.package p).id = none := by
    unfold find?
    rw [List.find?_eq_none.mpr fun e he => by simp [hother e he]]
    rfl
  unfold Store.readd
  rw [hdeleted]
  show (({ s with objects := l ++ r } : Store).add (.package p)).2.objects = _
  simp only [add, objection?, hobj, Bool.not_true, Bool.false_eq_true, if_false, holds, hnone]
  exact place_new hother

theorem Sound.sameObjects_readd (hs : s.Sound) (ht : (s.readd (.package p)).Sound)
    (h : s.objects = l ++ (id, .package p) :: r) : s.SameObjects (s.readd (.package p)) := by
  have hobjects := hs.readd h
  have hmem : (id, .package p) ∈ s.objects := h ▸ List.mem_append_right l List.mem_cons_self
  obtain ⟨hid, hobj⟩ := hs.atomic _ hmem
  have hkey := hs.keyed _ hmem
  constructor
  · intro e he
    refine ⟨e.2, ?_, Or.inl rfl⟩
    rw [h, List.mem_append, List.mem_cons] at he
    have hmoved : ((Resource.package p).id, .package p) ∈ (s.readd (.package p)).objects := by
      rw [hobjects]
      exact List.mem_append_right _ (List.mem_singleton_self _)
    have hkept (he' : e ∈ l ++ r) : (s.readd (.package p)).find? e.1 = some e.2 := by
      have hmem' : e ∈ (s.readd (.package p)).objects := hobjects ▸ List.mem_append_left _ he'
      have hatomic := (ht.atomic _ hmem').1
      exact ht.find?_of_mem hmem' hatomic (ResourceId.same_self hatomic)
    rcases he with hl | rfl | hr
    · exact hkept (List.mem_append_left r hl)
    · exact ht.find?_of_mem hmoved hid (ResourceId.same_symm hid hobj hkey)
    · exact hkept (List.mem_append_right l hr)
  · intro e he
    refine ⟨e.2, ?_, Or.inl rfl⟩
    rw [hobjects, List.mem_append, List.mem_singleton] at he
    rcases he with he | rfl
    · have hmem' : e ∈ s.objects := by
        rw [h]
        exact ((List.sublist_cons_self _ r).append_left l).subset he
      have hatomic := (hs.atomic _ hmem').1
      exact hs.find?_of_mem hmem' hatomic (ResourceId.same_self hatomic)
    · exact hs.find?_of_mem hmem hobj hkey

section

variable {install : PackageInstall} {globalNamespace : Option String}

/-- The package of an entry, if an install may mean it. -/
def meant (install : PackageInstall) (globalNamespace : Option String)
    (e : ResourceId × Resource) : Option Package :=
  e.2.package?.filter fun p => decide (p.Meets install globalNamespace)

theorem meeting_eq_filterMap (s : Store) :
    s.meeting install globalNamespace = s.objects.filterMap (meant install globalNamespace) := by
  unfold meeting packages
  rw [List.filterMap_map, List.filter_filterMap]
  rfl

theorem meant_eq_some_iff {e : ResourceId × Resource} :
    meant install globalNamespace e = some p ↔
      e.2 = .package p ∧ p.Meets install globalNamespace := by
  obtain ⟨id, obj⟩ := e
  unfold meant
  rw [Option.filter_eq_some_iff, decide_eq_true_iff]
  cases obj <;> simp [Resource.package?]

/-- A place among the packages that an install may mean is a place in the store. -/
theorem split_of_meeting {before after : List Package}
    (h : s.meeting install globalNamespace = before ++ p :: after) :
    ∃ l id r, s.objects = l ++ (id, .package p) :: r ∧ p.Meets install globalNamespace ∧
      l.filterMap (meant install globalNamespace) = before ∧
      r.filterMap (meant install globalNamespace) = after := by
  rw [meeting_eq_filterMap] at h
  obtain ⟨l, rest, hobjects, hbefore, hrest⟩ := List.filterMap_eq_append_iff.mp h
  obtain ⟨l', ⟨id, obj⟩, r, rfl, hnone, hp, hafter⟩ := List.filterMap_eq_cons_iff.mp hrest
  obtain ⟨rfl, hmeets⟩ := meant_eq_some_iff.mp hp
  refine ⟨l ++ l', id, r, by rw [hobjects, List.append_assoc], hmeets, ?_, hafter⟩
  rw [List.filterMap_append, hbefore, List.filterMap_eq_nil_iff.mpr hnone, List.append_nil]

end

end Store

/-- When the first of several preferred packages is moved to the end, then the next one comes
first. -/
theorem head?_preferred_moved {ns : Value} {before after : List Package} {p : Package}
    (hplace : (p.ns.same ns = true ∧ ∀ q ∈ before, q.ns.same ns = false) ∨
      (before = [] ∧ ∀ q ∈ before ++ p :: after, q.ns.same ns = false))
    (htwo : 2 ≤ (preferred ns (before ++ p :: after)).length) :
    ∃ q ∈ after, (preferred ns (before ++ after ++ [p])).head? = some q := by
  unfold preferred at htwo ⊢
  rcases hplace with ⟨hp, hbefore⟩ | ⟨rfl, hnone⟩
  · have hfilter : before.filter (fun q => q.ns.same ns) = [] :=
      List.filter_eq_nil_iff.mpr fun q hq => by simp [hbefore q hq]
    rw [if_pos (List.any_eq_true.mpr ⟨p, by simp, hp⟩), List.filter_append, hfilter,
      List.nil_append, List.filter_cons, if_pos hp, List.length_cons] at htwo
    rw [if_pos (List.any_eq_true.mpr ⟨p, by simp, hp⟩), List.filter_append, List.filter_append,
      hfilter, List.nil_append]
    obtain ⟨q, rest, hq⟩ := List.exists_cons_of_length_pos (Nat.le_of_succ_le_succ htwo)
    refine ⟨q, (List.mem_filter.mp (hq ▸ List.mem_cons_self)).1, ?_⟩
    rw [hq]
    rfl
  · have hfalse {found : List Package} (h : ∀ q ∈ found, q ∈ [] ++ p :: after) :
        ¬found.any (fun q => q.ns.same ns) = true := by
      rw [List.any_eq_true]
      rintro ⟨q, hq, hns⟩
      rw [hnone q (h q hq)] at hns
      cases hns
    rw [if_neg (hfalse fun _ => id), List.nil_append, List.length_cons] at htwo
    rw [if_neg (hfalse (by simp [or_comm])), List.nil_append]
    obtain ⟨q, rest, hq⟩ := List.exists_cons_of_length_pos (Nat.le_of_succ_le_succ htwo)
    refine ⟨q, hq ▸ List.mem_cons_self, ?_⟩
    rw [hq]
    rfl

/-- When the package that was found is added again and there is another one to prefer, then
that one is found. -/
theorem Store.Sound.resolvePackage_readd {s : Store} {install : PackageInstall}
    {globalNamespace : Option String} {p : Package} (hs : s.Sound)
    (ht : (s.readd (.package p)).Sound)
    (htwo : 2 ≤ (preferred install.ns (s.meeting install globalNamespace)).length)
    (hp : resolvePackage s.packages install globalNamespace = .ok p) :
    s.SameObjects (s.readd (.package p)) ∧
      ∃ q, resolvePackage (s.readd (.package p)).packages install globalNamespace = .ok q ∧
        (Resource.package q).id.same (Resource.package p).id = false := by
  obtain ⟨refName, hname, -, -, hchoose, -⟩ := resolvePackage_eq_ok.mp hp
  rw [candidates_eq_meeting hname, choose_eq_some_iff] at hchoose
  obtain ⟨before, after, hfound, hplace⟩ := hchoose
  obtain ⟨l, id, r, hobjects, hmeets, hbefore, hafter⟩ := Store.split_of_meeting hfound
  have hsame := hs.sameObjects_readd ht hobjects
  have hmeeting : (s.readd (.package p)).meeting install globalNamespace =
      before ++ after ++ [p] := by
    have hlast : Store.meant install globalNamespace ((Resource.package p).id, .package p) =
        some p := Store.meant_eq_some_iff.mpr ⟨rfl, hmeets⟩
    rw [Store.meeting_eq_filterMap, hs.readd hobjects, List.filterMap_append,
      List.filterMap_append, hbefore, hafter, List.filterMap_cons_some hlast, List.filterMap_nil]
  rw [hfound] at hplace htwo
  obtain ⟨q, hq, hhead⟩ := head?_preferred_moved hplace htwo
  refine ⟨hsame, q, ?_, ?_⟩
  · rcases hresult : resolvePackage (s.readd (.package p)).packages install globalNamespace
      with e | q'
    · cases hp.symm.trans (hsame.symm.resolvePackage_error ht hs hresult)
    · obtain ⟨-, hhead'⟩ := head?_of_resolvePackage hresult
      rw [hmeeting, hhead] at hhead'
      rw [Option.some.inj hhead']
  · rw [← hafter] at hq
    obtain ⟨⟨i, obj⟩, he, hobj⟩ := List.mem_filterMap.mp hq
    obtain ⟨rfl, -⟩ := Store.meant_eq_some_iff.mp hobj
    have hother := hs.other hobjects _ (List.mem_append_right l he)
    have hmem : (i, .package q) ∈ s.objects := by
      rw [hobjects]
      exact List.mem_append_right l (List.mem_cons_of_mem _ he)
    have hmem' : (id, .package p) ∈ s.objects :=
      hobjects ▸ List.mem_append_right l List.mem_cons_self
    rw [Bool.eq_false_iff] at hother ⊢
    exact fun h => hother (ResourceId.same_trans (hs.atomic _ hmem).1 (hs.atomic _ hmem).2
      (hs.atomic _ hmem').2 (hs.keyed _ hmem) h)

/-! ## The search and the order of a store -/

/-- **When the order of a store makes a difference to what an install means.** It makes none to
a search that fails: of two stores with the same objects both fail it, and over the same error.
It makes none either when one package at most is left to prefer: then both find it, or one that
is equal to it. And if one store has the objects of the other in another order, then what they
find is identical. But wherever two packages are left to prefer, the first of them is found;
once it is deleted and added again the store holds the same objects as before, and another
package is found. -/
theorem resolvePackage_order {s t : Store} (hs : s.Reached Store.Change.any)
    (ht : t.Reached Store.Change.any) (hsame : s.SameObjects t) (install : PackageInstall)
    (globalNamespace : Option String) :
    (∀ e, resolvePackage s.packages install globalNamespace = .error e ↔
      resolvePackage t.packages install globalNamespace = .error e) ∧
    ((preferred install.ns (s.meeting install globalNamespace)).length ≤ 1 →
      (∀ p, resolvePackage s.packages install globalNamespace = .ok p →
        ∃ q, resolvePackage t.packages install globalNamespace = .ok q ∧
          (q = p ∨ Package.schema.same q p = true)) ∧
      (t.objects.Perm s.objects →
        resolvePackage t.packages install globalNamespace =
          resolvePackage s.packages install globalNamespace)) ∧
    (2 ≤ (preferred install.ns (s.meeting install globalNamespace)).length →
      ∀ p, resolvePackage s.packages install globalNamespace = .ok p →
        (s.readd (.package p)).Reached Store.Change.any ∧ s.SameObjects (s.readd (.package p)) ∧
        ∃ q, resolvePackage (s.readd (.package p)).packages install globalNamespace = .ok q ∧
          (Resource.package q).id.same (Resource.package p).id = false) := by
  have hs' := hs.sound
  have ht' := ht.sound
  refine ⟨fun e => ⟨hsame.resolvePackage_error hs' ht', hsame.symm.resolvePackage_error ht' hs'⟩,
    fun hone => ⟨fun p => hsame.resolvePackage_ok hs' ht' hone, fun hperm => ?_⟩,
    fun htwo p hp => ?_⟩
  · exact hsame.resolvePackage_perm hs' ht' hone hperm
  · have hreadd := hs.readd (.package p)
    exact ⟨hreadd, hs'.resolvePackage_readd hreadd.sound htwo hp⟩

/-- A package in the namespace of the install and a global one, whichever was there first. -/
theorem resolvePackage_order_shadowed :
    ∃ (s t : Store) (install : PackageInstall) (shared own : Package),
      s = Store.given [.package shared, .package own] ∧
      t = Store.given [.package own, .package shared] ∧
      shared.ns = .str "global" ∧ own.ns = .str "apps" ∧
      s.packages = [shared, own] ∧ t.packages = [own, shared] ∧
      resolvePackage s.packages install (some "global") = .ok own ∧
      resolvePackage t.packages install (some "global") = .ok own := by
  let package (ns : String) : Package :=
    { name := .str "p1", ns := .str ns, refName := .str "p", version := "1.0.0" }
  let shared := package "global"
  let own := package "apps"
  let install : PackageInstall :=
    { name := .str "web", ns := .str "apps", spec := { packageRef := some { refName := "p" } } }
  let s := Store.given [.package shared, .package own]
  let t := Store.given [.package own, .package shared]
  have hs : s.Reached Store.Change.any := Store.given_reached _
  have ht : t.Reached Store.Change.any := Store.given_reached _
  have hsame : s.SameObjects t := by
    refine ⟨fun e he => ⟨e.2, ?_, Or.inl rfl⟩, fun e he => ⟨e.2, ?_, Or.inl rfl⟩⟩
    · revert e
      decide +kernel
    · revert e
      decide +kernel
  have hmeeting : s.meeting install (some "global") = [shared, own] := by decide +kernel
  have hpreferred : preferred install.ns (s.meeting install (some "global")) = [own] := by
    decide +kernel
  have hone : (preferred install.ns (s.meeting install (some "global"))).length ≤ 1 := by
    rw [hpreferred]
    exact Nat.le_refl 1
  have hown : resolvePackage s.packages install (some "global") = .ok own :=
    resolvePackage_of_head? "p" rfl (by decide) rfl (by rw [hpreferred]; rfl)
      (by rw [hmeeting]; decide)
  have horder := resolvePackage_order hs ht hsame install (some "global")
  have hperm : t.objects.Perm s.objects := by decide +kernel
  exact ⟨s, t, install, shared, own, rfl, rfl, rfl, rfl, by decide +kernel, by decide +kernel, hown,
    ((horder.2.1 hone).2 hperm).trans hown⟩

/-- Two packages of one version in one namespace: the install means whichever was there first,
and they have different templates. -/
theorem resolvePackage_order_first :
    ∃ (s t : Store) (install : PackageInstall) (a b : Package),
      s = Store.given [.package a, .package b] ∧ t = Store.given [.package b, .package a] ∧
      s.SameObjects t ∧ t.objects.Perm s.objects ∧
      a.ns = install.ns ∧ b.ns = install.ns ∧ a.version = b.version ∧
      Package.schema.same a b = false ∧ AppSpec.schema.same a.template b.template = false ∧
      resolvePackage s.packages install none = .ok a ∧
      resolvePackage t.packages install none = .ok b := by
  let package (name url : String) : Package :=
    { name := .str name, ns := .str "apps", refName := .str "p", version := "1.0.0"
      template := { fetch := some [{ image := some { url := some url } }] } }
  let a := package "a" "registry/a"
  let b := package "b" "registry/b"
  let install : PackageInstall :=
    { name := .str "web", ns := .str "apps", spec := { packageRef := some { refName := "p" } } }
  let s := Store.given [.package a, .package b]
  let t := Store.given [.package b, .package a]
  have hsame : s.SameObjects t := by
    refine ⟨fun e he => ⟨e.2, ?_, Or.inl rfl⟩, fun e he => ⟨e.2, ?_, Or.inl rfl⟩⟩
    · revert e
      decide +kernel
    · revert e
      decide +kernel
  have hmeeting : s.meeting install none = [a, b] := by decide +kernel
  have hmeeting' : t.meeting install none = [b, a] := by decide +kernel
  have ha : resolvePackage s.packages install none = .ok a :=
    resolvePackage_of_head? "p" rfl (by decide) rfl
      (by rw [hmeeting]; decide +kernel) (by rw [hmeeting]; decide)
  have hb : resolvePackage t.packages install none = .ok b :=
    resolvePackage_of_head? "p" rfl (by decide) rfl
      (by rw [hmeeting']; decide +kernel) (by rw [hmeeting']; decide)
  exact ⟨s, t, install, a, b, rfl, rfl, hsame, by decide +kernel, rfl, rfl, rfl,
    by decide +kernel, by decide +kernel, ha, hb⟩

end AppSynthesis
