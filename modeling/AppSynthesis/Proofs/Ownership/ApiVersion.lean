/-
AppSynthesis.Proofs.Ownership.ApiVersion — the group and version that an API version stands for.

* `ApiVersionOf` — how a version of a group is spelled: after the group and a slash, and a
  version of the group without a name also by itself.
* `splitAtLastSlash_eq_iff` — a split at the last slash finds the one group and version that are
  spelled like this. Group and version of a kind and the group of a reference are all read
  through it (`GroupVersionKind.ofApiVersion_eq_iff`, `OwnerReference.group_eq_iff`).
* `NormalForm` — what is left of an API version when it is split and joined again.
* `GroupVersionKind.normalForm_apiVersion`, `GroupVersionKind.ofApiVersion_apiVersion` — the API
  version of a kind is the normal form of all its spellings, and stands for the kind again.

A group without a name has two spellings, `/v1` and `v1`. Only the second is ever written, and
both are read as the same group, so that splitting and joining agree on all texts.
-/
import AppSynthesis.Ownership.Controller

namespace AppSynthesis

/-! ## Spellings -/

/-- The text spells a version of a group. -/
inductive ApiVersionOf (group version : String) : String → Prop
  /-- The version comes after the group and a slash. -/
  | slashed (hversion : '/' ∉ version.toList) :
      ApiVersionOf group version (group ++ "/" ++ version)
  /-- There is nothing but the version when the group has no name. -/
  | bare (hgroup : group = "") (hversion : '/' ∉ version.toList) :
      ApiVersionOf group version version

namespace ApiVersionOf

variable {group version s : String}

theorem not_mem_version (h : ApiVersionOf group version s) : '/' ∉ version.toList := by
  cases h with
  | slashed hversion => exact hversion
  | bare _ hversion => exact hversion

/-- Every text spells a version: what follows its last slash, or all of it. -/
theorem exists_of (s : String) : ∃ group version, ApiVersionOf group version s := by
  by_cases hslash : '/' ∈ s.toList
  · -- The last slash of a text is the first of the reversed one.
    obtain ⟨after, before, hreverse, hafter⟩ :=
      List.eq_append_cons_of_mem (List.mem_reverse.mpr hslash)
    have hs : s = String.ofList before.reverse ++ "/" ++ String.ofList after.reverse := by
      rw [← String.toList_inj, ← List.reverse_inj, hreverse]
      simp
    rw [hs]
    exact ⟨_, _, .slashed (by simpa using hafter)⟩
  · exact ⟨"", s, .bare rfl hslash⟩

end ApiVersionOf

/-! ## Splits -/

/-- A text without a slash is run through to its end, also from behind. -/
theorem ne_slash_of_mem_reverse {s : List Char} (h : '/' ∉ s) :
    ∀ c ∈ s.reverse, decide (c ≠ '/') = true := by
  intro c hc
  exact decide_eq_true fun he => h (List.mem_reverse.mp (he ▸ hc))

/-- The part before the last slash of a text that ends in a slash and a version. -/
theorem splitAtLastSlash_append {before after : List Char} (h : '/' ∉ after) :
    splitAtLastSlash (String.ofList (before ++ '/' :: after)) =
      (String.ofList before, String.ofList after) := by
  have hrev : (before ++ '/' :: after).reverse = after.reverse ++ '/' :: before.reverse := by
    rw [List.reverse_append, List.reverse_cons, List.append_assoc]
    rfl
  have hafter := ne_slash_of_mem_reverse h
  unfold splitAtLastSlash
  simp only [String.toList_ofList, hrev]
  rw [List.takeWhile_append_of_pos hafter, List.dropWhile_append_of_pos hafter]
  simp

theorem splitAtLastSlash_of_not_mem {s : List Char} (h : '/' ∉ s) :
    splitAtLastSlash (String.ofList s) = ("", String.ofList s) := by
  have hs := ne_slash_of_mem_reverse h
  unfold splitAtLastSlash
  simp only [String.toList_ofList]
  rw [← List.append_nil s.reverse, List.takeWhile_append_of_pos hs,
    List.dropWhile_append_of_pos hs]
  simp

/-- The split undoes the spelling. -/
theorem splitAtLastSlash_of {group version s : String} (h : ApiVersionOf group version s) :
    splitAtLastSlash s = (group, version) := by
  cases h with
  | slashed hversion =>
    have hs : group ++ "/" ++ version = String.ofList (group.toList ++ '/' :: version.toList) := by
      rw [← String.toList_inj]
      simp
    rw [hs, splitAtLastSlash_append hversion, String.ofList_toList, String.ofList_toList]
  | bare hgroup hversion =>
    rw [hgroup, ← String.ofList_toList (s := version), splitAtLastSlash_of_not_mem hversion]

/-- The split finds the group and version that a text spells, and these alone. -/
theorem splitAtLastSlash_eq_iff {group version s : String} :
    splitAtLastSlash s = (group, version) ↔ ApiVersionOf group version s := by
  refine ⟨fun h => ?_, splitAtLastSlash_of⟩
  obtain ⟨group', version', hspelled⟩ := ApiVersionOf.exists_of s
  rw [splitAtLastSlash_of hspelled] at h
  obtain ⟨rfl, rfl⟩ := Prod.mk.inj h
  exact hspelled

/-- A text spells versions of one group only. -/
theorem ApiVersionOf.group_unique {group group' version version' s : String}
    (h : ApiVersionOf group version s) (h' : ApiVersionOf group' version' s) : group = group' :=
  congrArg Prod.fst ((splitAtLastSlash_of h).symm.trans (splitAtLastSlash_of h'))

/-! ## Kinds -/

/-- The second text is what the first becomes when it is split and joined again. -/
inductive NormalForm : String → String → Prop
  /-- A slash with nothing before it is dropped. -/
  | dropped {version : String} (hversion : '/' ∉ version.toList) :
      NormalForm ("/" ++ version) version
  /-- All other texts stay as they are. -/
  | kept {s : String} (hs : ∀ version, '/' ∉ version.toList → s ≠ "/" ++ version) : NormalForm s s

namespace GroupVersionKind

variable {g : GroupVersionKind} {s kind : String}

theorem ofApiVersion_eq_iff :
    ofApiVersion s kind = g ↔ ApiVersionOf g.group g.version s ∧ kind = g.kind := by
  rw [← splitAtLastSlash_eq_iff]
  cases g
  simp [ofApiVersion, Prod.ext_iff, and_assoc]

/-- The kind that an API version stands for is spelled by it. -/
theorem apiVersionOf_ofApiVersion (s kind : String) :
    ApiVersionOf (ofApiVersion s kind).group (ofApiVersion s kind).version s :=
  (ofApiVersion_eq_iff.mp rfl).1

/-- The API version of a kind spells its group and version. -/
theorem apiVersionOf_apiVersion (hversion : '/' ∉ g.version.toList) :
    ApiVersionOf g.group g.version g.apiVersion := by
  unfold apiVersion
  split
  · exact .bare (String.isEmpty_iff.mp ‹_›) hversion
  · exact .slashed hversion

/-- Splitting the API version of a kind gives the kind again. -/
theorem ofApiVersion_apiVersion (hversion : '/' ∉ g.version.toList) :
    ofApiVersion g.apiVersion g.kind = g :=
  ofApiVersion_eq_iff.mpr ⟨apiVersionOf_apiVersion hversion, rfl⟩

/-- The API version of a kind is the normal form of every text that spells it. -/
theorem normalForm_apiVersion (h : ApiVersionOf g.group g.version s) :
    NormalForm s g.apiVersion := by
  obtain ⟨group, version, kind⟩ := g
  unfold apiVersion
  by_cases hgroup : group = ""
  · subst hgroup
    cases h with
    | slashed hversion => exact .dropped hversion
    | bare _ hversion =>
      refine .kept fun version' _ heq => hversion ?_
      have hhead : version.toList = '/' :: version'.toList := by
        simpa using congrArg String.toList heq
      exact hhead ▸ List.mem_cons_self
  · cases h with
    | slashed hversion =>
      simp only [String.isEmpty_iff, hgroup, if_false]
      -- A text that begins with its only slash would be of the group without a name.
      refine .kept fun version' hversion' heq => hgroup ?_
      have hunnamed : ApiVersionOf "" version' (group ++ "/" ++ version) := by
        rw [heq]
        exact .slashed hversion'
      exact (ApiVersionOf.slashed hversion).group_unique hunnamed
    | bare hempty _ => exact absurd hempty hgroup

end GroupVersionKind

/-! ## Groups of references -/

/-- The group of a reference is the one that its API version spells a version of. -/
theorem OwnerReference.group_eq_iff {a : OwnerReference} {group : String} :
    a.group = group ↔ ∃ version, ApiVersionOf group version a.apiVersion := by
  constructor
  · rintro rfl
    exact ⟨_, splitAtLastSlash_eq_iff.mp rfl⟩
  · rintro ⟨version, h⟩
    exact congrArg Prod.fst (splitAtLastSlash_of h)

/-- The reference to an owner is in the group of its kind. -/
theorem OwnerReference.group_controlling {g : GroupVersionKind} (hversion : '/' ∉ g.version.toList)
    (name uid : Value) : (OwnerReference.controlling g name uid).group = g.group :=
  OwnerReference.group_eq_iff.mpr ⟨g.version, GroupVersionKind.apiVersionOf_apiVersion hversion⟩

end AppSynthesis
