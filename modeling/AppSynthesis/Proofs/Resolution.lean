/-
AppSynthesis.Proofs.Resolution — what it takes for an install to mean a package.

* `resolvePackage_eq_ok` — all that was checked when a package is found.
* `mem_of_resolvePackage` — the package is one of those in the store.
* `resolvePackage_congr` — nothing but the candidates is looked at.
* `candidates_local` — when the global namespace makes no difference to these.
-/
import AppSynthesis.Proofs.Value.Identity
import AppSynthesis.Resolution

namespace AppSynthesis

variable {packages : List Package} {install : PackageInstall} {globalNamespace : Option String}

/-- The package that is chosen is a candidate. -/
theorem mem_of_choose {ns : Value} {found : List Package} {package : Package}
    (h : choose ns found = some package) : package ∈ found := by
  unfold choose at h
  rw [Option.orElse_eq_orElse, Option.orElse_eq_or, Option.or_eq_some_iff] at h
  rcases h with hown | ⟨_, hfirst⟩
  · exact List.mem_of_find?_eq_some hown
  · exact List.mem_of_mem_head? hfirst

/-- An install means a package when it asks for one by name, the package is the one to
choose among the candidates, and these agree on a version. -/
theorem resolvePackage_eq_ok {package : Package} :
    resolvePackage packages install globalNamespace = .ok package ↔
      ∃ refName, install.refName? = some refName ∧ refName.isEmpty = false ∧
        install.ns.isAtomic = true ∧
        choose install.ns (candidates packages install refName globalNamespace) = some package ∧
        (versionsOf (candidates packages install refName globalNamespace)).length ≤ 1 := by
  unfold resolvePackage
  constructor
  · intro h
    split at h
    · cases h
    · rename_i refName hname
      split at h
      · cases h
      · rename_i hempty
        split at h
        · cases h
        · rename_i hatomic
          dsimp only at h
          split at h
          · cases h
          · rename_i chosen hchoose
            split at h
            · cases h
            · rename_i hversions
              obtain rfl := Except.ok.inj h
              exact ⟨refName, hname, by simpa using hempty, by simpa using hatomic, hchoose,
                Nat.not_lt.mp hversions⟩
  · rintro ⟨refName, hname, hempty, hatomic, hchoose, hversions⟩
    simp only [hname, hempty, hatomic, hchoose, Bool.not_true, Bool.false_eq_true, if_false,
      if_neg (Nat.not_lt.mpr hversions)]

theorem mem_of_resolvePackage {package : Package}
    (h : resolvePackage packages install globalNamespace = .ok package) : package ∈ packages := by
  obtain ⟨refName, _, _, _, hchoose, _⟩ := resolvePackage_eq_ok.mp h
  exact (List.mem_filter.mp (mem_of_choose hchoose)).1

/-- Which package an install means depends on the candidates alone. -/
theorem resolvePackage_congr {ps qs : List Package} {g h : Option String}
    (hsame : ∀ refName, install.refName? = some refName →
      candidates ps install refName g = candidates qs install refName h) :
    resolvePackage ps install g = resolvePackage qs install h := by
  unfold resolvePackage
  rcases hname : install.refName? with _ | refName
  · rfl
  · simp only [hsame refName hname]

/-- Packages that lie in a namespace are seen without a global namespace only where they
lie. So if no candidate is merely global, the global namespace makes no difference. -/
theorem candidates_local {refName : String} (hns : ∀ p ∈ packages, p.ns.isTrue = true)
    (hlocal : ∀ p ∈ candidates packages install refName globalNamespace,
      p.ns.agrees install.ns = true) :
    candidates packages install refName globalNamespace =
      candidates packages install refName none := by
  refine List.filter_congr fun p hp => ?_
  by_cases hagrees : p.ns.agrees install.ns = true
  · simp only [Package.isVisible, hagrees, Bool.true_or]
  · have hnone : p.isVisible install.ns none = false := by
      have hnull : p.ns.same .null = false := by
        rw [Bool.eq_false_iff]
        intro hsame
        have htrue := hns p hp
        rw [Value.same_null.mp hsame] at htrue
        cases htrue
      simp only [Package.isVisible, hagrees, hnull, Bool.or_false]
    rw [hnone, Bool.and_false, Bool.false_and]
    rw [Bool.eq_false_iff]
    intro hcandidate
    exact hagrees (hlocal p (List.mem_filter.mpr ⟨hp, hcandidate⟩))

end AppSynthesis
