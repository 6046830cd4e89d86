/-
AppSynthesis.Proofs.Ownership.References — what an owner reference replaces and
what it leaves alone.

* `Scheme.Registered` — the schemes that registrations build. Their kinds come
  from API versions, so the group of a kind is the group of a reference to it
  (`Scheme.Registered.group_controlling`).
* `OwnerReference.SameOwner` — two references that every comparison of owners
  takes for the same.
* `OwnerReference.upsert_upsert` — of two references to one owner the later
  counts, in the place of the first.
* `OwnerReference.others_sublist_upsert` — references to other owners are kept,
  in their order.
* `App.claim_claimed` — an App that an owner controls is claimed by the same
  owner as it was before the owner ever claimed it.
-/
import AppSynthesis.Proofs.Ownership.ApiVersion
import AppSynthesis.Proofs.Value.Identity

namespace AppSynthesis

/-! ## Registered schemes -/

namespace Scheme

/-- The schemes that registrations build. -/
inductive Registered : Scheme → Prop
  | empty : Registered {}
  | register {s : Scheme} (type : RecordType) (apiVersion kind : String) :
      Registered s → Registered (s.register type apiVersion kind)

theorem Registered.standard : Registered .standard :=
  .register _ _ _ (.register _ _ _ (.register _ _ _ .empty))

theorem Registered.kindOf? {s : Scheme} (h : s.Registered) {type : RecordType}
    {g : GroupVersionKind} (hg : s.kindOf? type = some g) :
    ∃ apiVersion kind, g = .ofApiVersion apiVersion kind := by
  induction h with
  | empty => cases hg
  | register t apiVersion kind _ ih =>
    unfold Scheme.kindOf? Scheme.register at hg
    rw [List.find?_cons] at hg
    split at hg
    · exact ⟨apiVersion, kind, (Option.some.inj hg).symm⟩
    · exact ih hg

/-- The reference to an owner is in the group of its kind. -/
theorem Registered.group_controlling {s : Scheme} (h : s.Registered) {type : RecordType}
    {g : GroupVersionKind} (hg : s.kindOf? type = some g) (name uid : Value) :
    (OwnerReference.controlling g name uid).group = g.group := by
  obtain ⟨apiVersion, kind, rfl⟩ := h.kindOf? hg
  exact OwnerReference.group_controlling
    (GroupVersionKind.apiVersionOf_ofApiVersion apiVersion kind).not_mem_version name uid

end Scheme

/-! ## References to one owner -/

namespace OwnerReference

/-- Two references that every comparison of owners takes for the same. -/
structure SameOwner (a b : OwnerReference) : Prop where
  /-- The two are taken for the same. -/
  refersTo : a.refersTo b = true
  /-- Whatever is compared with them cannot tell them apart. -/
  congr : ∀ r : OwnerReference, r.refersTo a = r.refersTo b

/-- References with one group, one kind and one name are to the same owner. -/
theorem SameOwner.of_eq {a b : OwnerReference} (hg : a.group = b.group) (hk : a.kind = b.kind)
    (hn : a.name = b.name) (hself : b.name.same b.name = true) : SameOwner a b where
  refersTo := by simp [OwnerReference.refersTo, hg, hk, hn, hself]
  congr := by
    intro r
    simp only [OwnerReference.refersTo, hg, hk, hn]

variable {a b : OwnerReference}

/-- What is there after a reference was set was set, or was there before. -/
theorem mem_upsert {ref r : OwnerReference} :
    ∀ {refs : List OwnerReference}, r ∈ ref.upsert refs → r = ref ∨ r ∈ refs
  | [], h => Or.inl (List.mem_singleton.mp h)
  | first :: rest, h => by
    rw [upsert] at h
    split at h
    · exact (List.mem_cons.mp h).imp_right (List.mem_cons_of_mem _)
    · rcases List.mem_cons.mp h with rfl | h
      · exact Or.inr List.mem_cons_self
      · exact (mem_upsert h).imp_right (List.mem_cons_of_mem _)

/-- Of two references to one owner the later counts. -/
theorem upsert_upsert (h : SameOwner a b) :
    ∀ refs : List OwnerReference, b.upsert (a.upsert refs) = b.upsert refs
  | [] => by simp [upsert, h.refersTo]
  | r :: rest => by
    have hr := h.congr r
    by_cases hb : r.refersTo b = true
    · rw [upsert, if_pos (hr.trans hb), upsert, if_pos h.refersTo, upsert, if_pos hb]
    · have ha : ¬r.refersTo a = true := fun ha => hb (hr.symm.trans ha)
      rw [upsert, if_neg ha, upsert, if_neg hb, upsert_upsert h rest, upsert, if_neg hb]

/-- References to other owners are kept, in their order. -/
theorem others_sublist_upsert (ref : OwnerReference) :
    ∀ refs : List OwnerReference,
      (refs.filter fun r => !r.refersTo ref).Sublist (ref.upsert refs)
  | [] => List.nil_sublist _
  | r :: rest => by
    rw [upsert]
    by_cases h : r.refersTo ref = true
    · rw [if_pos h, List.filter_cons_of_neg (by simp [h])]
      exact List.filter_sublist.cons ref
    · rw [if_neg h, List.filter_cons_of_pos (by simp [h])]
      exact (others_sublist_upsert ref rest).cons_cons r

/-- An owner that no other controls becomes the first controller. -/
theorem find?_upsert {ref : OwnerReference} {p : OwnerReference → Bool} (hp : p ref = true) :
    ∀ {refs : List OwnerReference}, (∀ r, refs.find? p = some r → r.refersTo ref = true) →
      (ref.upsert refs).find? p = some ref
  | [], _ => by simp [upsert, hp]
  | r :: rest, h => by
    rw [upsert]
    by_cases hr : r.refersTo ref = true
    · rw [if_pos hr, List.find?_cons_of_pos hp]
    · have hpr : ¬p r = true := fun hpr => hr (h r (List.find?_cons_of_pos hpr))
      rw [if_neg hr, List.find?_cons_of_neg hpr]
      exact find?_upsert hp fun r' hr' => h r' ((List.find?_cons_of_neg hpr).trans hr')

end OwnerReference

/-! ## Claiming an App -/

namespace App

/-- An App is claimed when no other owner controls it. -/
theorem claim_eq_ok {app : App} {ref : OwnerReference} {refs : List OwnerReference} :
    app.claim ref = .ok refs ↔
      (∀ r, app.controllerReference? = some r → r.refersTo ref = true) ∧
        refs = ref.upsert (app.ownerReferences.getD []) := by
  unfold claim
  rcases hc : app.controllerReference? with _ | existing
  · simpa using eq_comm
  · by_cases h : existing.refersTo ref = true
    · simpa [h] using eq_comm
    · simp [h]

/-- Claiming looks at nothing but name, namespace and owner references. -/
theorem claim_congr {x y : App} (hname : x.name = y.name) (hns : x.ns = y.ns)
    (hrefs : x.ownerReferences = y.ownerReferences) (ref : OwnerReference) :
    x.claim ref = y.claim ref := by
  simp only [claim, controllerReference?, namespacedName, hname, hns, hrefs]

/-- **What an owner has claimed it claims as before**: with the owner references
that the owner was given, an App is claimed as it would be without them. -/
theorem claim_claimed {x y z : App} {a b : OwnerReference} {refs : List OwnerReference}
    (hab : a.SameOwner b) (ha : a.controller = some true) (hx : x.claim a = .ok refs)
    (hy : y.ownerReferences = some refs) (hz : z.ownerReferences = x.ownerReferences) :
    y.claim b = z.claim b := by
  obtain ⟨hfree, rfl⟩ := claim_eq_ok.mp hx
  have hafter : y.claim b = .ok (b.upsert (x.ownerReferences.getD [])) := by
    rw [claim_eq_ok]
    refine ⟨fun r hr => ?_, ?_⟩
    · unfold controllerReference? at hr
      rw [hy, Option.getD_some, OwnerReference.find?_upsert (by simp [ha]) hfree] at hr
      exact Option.some.inj hr ▸ hab.refersTo
    · rw [hy, Option.getD_some, OwnerReference.upsert_upsert hab]
  have hbefore : z.claim b = .ok (b.upsert (x.ownerReferences.getD [])) := by
    rw [claim_eq_ok]
    unfold controllerReference? at hfree ⊢
    rw [hz]
    exact ⟨fun r hr => (hab.congr r).symm.trans (hfree r hr), rfl⟩
  rw [hafter, hbefore]

end App

/-- An App comes under the control of an owner of a known kind, in the namespace
of the owner, that no other owner stands against. -/
theorem Owner.controlOf_eq_ok {owner : Owner} {app : App} {scheme : Scheme}
    {refs : List OwnerReference} :
    owner.controlOf app scheme = .ok refs ↔
      ∃ g, scheme.kindOf? owner.type = some g ∧ checkNamespaces owner.ns app.ns = .ok () ∧
        app.claim (.controlling g owner.name owner.uid) = .ok refs := by
  unfold controlOf Scheme.kindOf
  rcases hg : scheme.kindOf? owner.type with _ | g
  · simp [bind, Except.bind]
  · rcases hn : checkNamespaces owner.ns app.ns with e | u
    · simp [bind, Except.bind]
    · simp [bind, Except.bind]

theorem Owner.controlOf_congr {owner : Owner} {x y : App} {scheme : Scheme}
    (hname : x.name = y.name) (hns : x.ns = y.ns) (hrefs : x.ownerReferences = y.ownerReferences) :
    owner.controlOf x scheme = owner.controlOf y scheme := by
  simp only [controlOf, hns, App.claim_congr hname hns hrefs]

end AppSynthesis
