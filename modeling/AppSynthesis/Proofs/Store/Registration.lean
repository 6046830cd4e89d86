/-
AppSynthesis.Proofs.Store.Registration — which registrations removers leave.

* `Store.Change.register?`, `Store.after_registrations` — what changes do to registrations.
* `Store.Use` — what clients ask of a store. A remover is told by the registration that it was
  handed out for, and that by the number of registrations before it.
* `Store.made`, `Store.kept` — the registrations of a history, and those among them whose own
  remover was not called, with their numbers.
* `Store.OwnFirst` — nobody else's registration stands between the one whose remover is called
  and an earlier one of the same listener, and if it is gone then no other of the listener is left.
* `Store.listeners_eq_kept_iff` — those left are the kept ones, at every moment of a history,
  exactly when this is so at every call of a remover.

The store tells registrations by event and listener alone, and takes away the first that it
finds. So the second of two registrations of a listener cannot be taken away before the first,
and a remover that is called again takes away what is not its own. What can be observed are the
listeners in their order: to take away the first of several equal ones in a row is to take away
any of them, and that is why the condition is about what stands in between.
-/
import Mathlib.Data.List.Induction
import AppSynthesis.Proofs.Store.Journal

namespace AppSynthesis.Store

/-! ## Registrations after changes -/

/-- What a change does to registrations. -/
def Change.onRegistrations :
    Change → List (StoreEvent × ListenerId) → List (StoreEvent × ListenerId)
  | .register event listener, registrations => registrations ++ [(event, listener)]
  | .unregister event listener, registrations => registrations.erase (event, listener)
  | _, registrations => registrations

theorem add_registrations (s : Store) (obj : Resource) :
    (s.add obj).2.registrations = s.registrations := by
  unfold add
  split
  · rfl
  · split
    · rfl
    · split <;> rfl

theorem Change.apply_registrations (c : Change) (s : Store) :
    (c.apply s).registrations = c.onRegistrations s.registrations := by
  cases c with
  | add obj => exact s.add_registrations obj
  | delete id => rcases delete_cases s id with h | h <;> rw [h] <;> rfl
  | register event listener => rfl
  | unregister event listener => rfl

theorem after_registrations (s : Store) (changes : List Change) :
    (s.after changes).registrations =
      changes.foldl (fun registrations c => c.onRegistrations registrations) s.registrations := by
  induction changes generalizing s with
  | nil => rfl
  | cons c rest ih => rw [after_cons, ih, c.apply_registrations, List.foldl_cons]

theorem listeners_register (s : Store) (event event' : StoreEvent) (listener : ListenerId) :
    (s.register event listener).listeners event' =
      s.listeners event' ++ if event = event' then [listener] else [] := by
  unfold listeners register
  by_cases h : event = event' <;> simp [h]

theorem listeners_unregister (s : Store) (event event' : StoreEvent) (listener : ListenerId) :
    (s.unregister event listener).listeners event' =
      if event = event' then (s.listeners event').erase listener else s.listeners event' := by
  unfold listeners unregister
  dsimp only
  induction s.registrations with
  | nil => simp
  | cons r rest ih =>
    by_cases hr : r = (event, listener)
    · subst hr
      by_cases h : event = event' <;> simp [h]
    · rw [List.erase_cons_tail (by simpa using hr), List.filter_cons, List.filter_cons]
      by_cases he : r.1 = event'
      · have hne : ¬(event = event' ∧ r.2 = listener) := fun h =>
          hr (Prod.ext (he.trans h.1.symm) h.2)
        by_cases h : event = event'
        · simp_all
        · simp_all
      · simp [he, ih]

/-! ## Histories -/

/-- What clients ask of a store. -/
inductive Use where
  | add (obj : Resource)
  | delete (id : ResourceId)
  | register (event : StoreEvent) (listener : ListenerId)
  /-- The remover of the registration that so many were made before. -/
  | remove (number : Nat)

namespace Use

/-- The registration that is made. -/
def registration? : Use → Option (StoreEvent × ListenerId)
  | .register event listener => some (event, listener)
  | _ => none

/-- The number of the registration whose remover is called. -/
def removed? : Use → Option Nat
  | .remove number => some number
  | _ => none

/-- The change of the store, after some registrations were made. -/
def change? (made : List (StoreEvent × ListenerId)) : Use → Option Change
  | .add obj => some (.add obj)
  | .delete id => some (.delete id)
  | .register event listener => some (.register event listener)
  | .remove number => made[number]?.map fun r => .unregister r.1 r.2

end Use

/-- The registrations that were made, in order. -/
def made (uses : List Use) : List (StoreEvent × ListenerId) := uses.filterMap Use.registration?

/-- The numbers of the registrations whose removers were called. -/
def removed (uses : List Use) : List Nat := uses.filterMap Use.removed?

/-- The changes of a history that goes on after some registrations were made. -/
def changesAfter (before : List (StoreEvent × ListenerId)) : List Use → List Change
  | [] => []
  | use :: rest =>
    (use.change? before).toList ++ changesAfter (before ++ use.registration?.toList) rest

/-- The changes of a history. -/
def changes (uses : List Use) : List Change := changesAfter [] uses

/-- No remover is called before it was handed out. -/
def HandedOut (uses : List Use) : Prop :=
  ∀ k < uses.length, ∀ number ∈ uses[k]?.bind Use.removed?, number < (made (uses.take k)).length

instance (uses : List Use) : Decidable (HandedOut uses) :=
  inferInstanceAs (Decidable (∀ k < uses.length, ∀ number ∈ uses[k]?.bind Use.removed?,
    number < (made (uses.take k)).length))

/-- The registrations of an event whose own remover was not called, in the order in which they
were made, each with its number and its listener. -/
def kept (event : StoreEvent) (uses : List Use) : List (Nat × ListenerId) :=
  (made uses).zipIdx.filterMap fun r =>
    if r.1.1 = event ∧ r.2 ∉ removed uses then some (r.2, r.1.2) else none

/-- Of a remover that is called: no other registration of its listener is left if its own is gone,
and no registration of another listener stands between its own and an earlier one of its
listener. -/
def OwnFirst (left : List (Nat × ListenerId)) (number : Nat) (listener : ListenerId) : Prop :=
  ∀ first ∈ left, first.2 = listener → (number, listener) ∈ left ∧
    ∀ r ∈ left, first.1 ≤ r.1 → r.1 ≤ number → r.2 = listener

/-! ## Taking away the first of equal ones -/

section

variable {number : Nat} {listener : ListenerId} {left : List (Nat × ListenerId)}
  (horder : left.Pairwise fun r r' => r.1 < r'.1)
  (hown : ∀ r ∈ left, r.1 = number → r.2 = listener)
include horder hown

/-- To take away a registration is to take away the first, when all up to it are equal. -/
theorem map_eq_cons_iff :
    left.map (·.2) = listener :: (left.filter fun r => r.1 ≠ number).map (·.2) ↔
      (number, listener) ∈ left ∧ ∀ r ∈ left, r.1 ≤ number → r.2 = listener := by
  induction left with
  | nil => simp
  | cons r rest ih =>
    obtain ⟨hless, horder⟩ := List.pairwise_cons.mp horder
    obtain ⟨hr, hown⟩ := List.forall_mem_cons.mp hown
    by_cases hnumber : r.1 = number
    · subst hnumber
      have hrest : rest.filter (fun r' => r'.1 ≠ r.1) = rest :=
        List.filter_eq_self.mpr fun r' hr' => decide_eq_true (Nat.ne_of_gt (hless r' hr'))
      have hfirst : (r.1, listener) = r := Prod.ext rfl (hr rfl).symm
      rw [List.filter_cons_of_neg (by simp), hrest, hfirst, List.map_cons, hr rfl]
      refine iff_of_true rfl ⟨List.mem_cons_self, List.forall_mem_cons.mpr ⟨fun _ => hr rfl, ?_⟩⟩
      exact fun r' hr' hle => absurd (hless r' hr') (Nat.not_lt.mpr hle)
    · rw [List.filter_cons_of_pos (by simpa using hnumber), List.map_cons, List.map_cons,
        List.cons.injEq]
      constructor
      · rintro ⟨rfl, hmap⟩
        obtain ⟨hmem, hall⟩ := (ih horder hown).mp hmap
        exact ⟨List.mem_cons_of_mem _ hmem, List.forall_mem_cons.mpr ⟨fun _ => rfl, hall⟩⟩
      · rintro ⟨hmem, hall⟩
        obtain ⟨hfirst, hall⟩ := List.forall_mem_cons.mp hall
        have hmem : (number, listener) ∈ rest :=
          (List.mem_cons.mp hmem).resolve_left fun h => hnumber (h ▸ rfl)
        have hr : r.2 = listener := hfirst (Nat.le_of_lt (hless _ hmem))
        exact ⟨hr, hr.symm ▸ (ih horder hown).mpr ⟨hmem, hall⟩⟩

/-- **What is left without the first registration of a listener is what is left without a certain
one**, exactly when nobody else's stands between the two. -/
theorem erase_eq_iff_ownFirst :
    (left.map (·.2)).erase listener = (left.filter fun r => r.1 ≠ number).map (·.2) ↔
      OwnFirst left number listener := by
  induction left with
  | nil => simp [OwnFirst]
  | cons r rest ih =>
    obtain ⟨hless, horder'⟩ := List.pairwise_cons.mp horder
    obtain ⟨hr, hown'⟩ := List.forall_mem_cons.mp hown
    by_cases hsame : r.2 = listener
    · have hrow := map_eq_cons_iff horder hown
      rw [List.map_cons, hsame, List.cons.injEq, and_iff_right rfl] at hrow
      rw [List.map_cons, hsame, List.erase_cons_head, hrow]
      constructor
      · exact fun h first _ _ => ⟨h.1, fun r' hr' _ => h.2 r' hr'⟩
      · intro h
        obtain ⟨hmem, hall⟩ := h r List.mem_cons_self hsame
        refine ⟨hmem, fun r' hr' => hall r' hr' ?_⟩
        rcases List.mem_cons.mp hr' with rfl | hr'
        · exact Nat.le_refl _
        · exact Nat.le_of_lt (hless r' hr')
    · have hnumber : r.1 ≠ number := fun h => hsame (hr h)
      rw [List.map_cons, List.erase_cons_tail (by simpa using hsame),
        List.filter_cons_of_pos (by simpa using hnumber), List.map_cons, List.cons.injEq,
        and_iff_right rfl, ih horder' hown']
      constructor
      · intro h first hfirst hlistener
        have hfirst : first ∈ rest :=
          (List.mem_cons.mp hfirst).resolve_left fun h => hsame (h ▸ hlistener)
        obtain ⟨hmem, hall⟩ := h first hfirst hlistener
        refine ⟨List.mem_cons_of_mem _ hmem, List.forall_mem_cons.mpr ⟨fun hle => ?_, hall⟩⟩
        exact absurd (hless first hfirst) (Nat.not_lt.mpr hle)
      · intro h first hfirst hlistener
        obtain ⟨hmem, hall⟩ := h first (List.mem_cons_of_mem _ hfirst) hlistener
        exact ⟨(List.mem_cons.mp hmem).resolve_left fun h => hnumber (h ▸ rfl),
          (List.forall_mem_cons.mp hall).2⟩

end

/-! ## One more request -/

variable {event : StoreEvent} {past uses : List Use}

theorem made_append (past uses : List Use) : made (past ++ uses) = made past ++ made uses :=
  List.filterMap_append ..

theorem changesAfter_append (before : List (StoreEvent × ListenerId)) (past uses : List Use) :
    changesAfter before (past ++ uses) =
      changesAfter before past ++ changesAfter (before ++ made past) uses := by
  induction past generalizing before with
  | nil => simp [changesAfter, made]
  | cons use rest ih =>
    rw [List.cons_append, changesAfter, changesAfter, ih, List.append_assoc, List.append_assoc]
    cases use <;> rfl

theorem changes_concat (past : List Use) (use : Use) :
    changes (past ++ [use]) = changes past ++ (use.change? (made past)).toList := by
  unfold changes
  rw [changesAfter_append, List.nil_append, changesAfter, changesAfter, List.append_nil]

theorem mem_kept {r : Nat × ListenerId} :
    r ∈ kept event uses ↔ (made uses)[r.1]? = some (event, r.2) ∧ r.1 ∉ removed uses := by
  unfold kept
  simp only [List.mem_filterMap]
  constructor
  · rintro ⟨⟨⟨e, l⟩, k⟩, hmem, hr⟩
    split at hr
    · rename_i hkept
      obtain rfl := Option.some.inj hr
      obtain ⟨rfl, hleft⟩ := hkept
      exact ⟨List.mk_mem_zipIdx_iff_getElem?.mp hmem, hleft⟩
    · cases hr
  · rintro ⟨hmade, hleft⟩
    exact ⟨((event, r.2), r.1), List.mk_mem_zipIdx_iff_getElem?.mpr hmade, by simp [hleft]⟩

theorem kept_order (event : StoreEvent) (uses : List Use) :
    (kept event uses).Pairwise fun r r' => r.1 < r'.1 := by
  have hnumbers : (made uses).zipIdx.Pairwise fun r r' => r.2 < r'.2 := by
    rw [← List.pairwise_map, List.zipIdx_map_snd]
    exact List.pairwise_lt_range'
  refine hnumbers.filterMap _ fun r r' hless q hq q' hq' => ?_
  split at hq
  · split at hq'
    · obtain rfl := Option.some.inj hq
      obtain rfl := Option.some.inj hq'
      exact hless
    · cases hq'
  · cases hq

theorem kept_remove (event : StoreEvent) (past : List Use) (number : Nat) :
    kept event (past ++ [.remove number]) = (kept event past).filter fun r => r.1 ≠ number := by
  have hmade : made (past ++ [.remove number]) = made past := by
    simp [made, Use.registration?]
  have hremoved : removed (past ++ [.remove number]) = removed past ++ [number] := by
    simp [removed, Use.removed?]
  unfold kept
  rw [hmade, hremoved, List.filter_filterMap]
  congr
  funext r
  by_cases hkept : r.1.1 = event ∧ r.2 ∉ removed past
  · by_cases hr : r.2 = number
    · subst hr
      simp [Option.filter, hkept]
    · simp [Option.filter, hkept, hr]
  · have hstill : ¬(r.1.1 = event ∧ r.2 ∉ removed past ++ [number]) := fun h =>
      hkept ⟨h.1, fun hmem => h.2 (List.mem_append_left _ hmem)⟩
    rw [if_neg hkept, if_neg hstill]
    rfl

theorem kept_register (h : ∀ number ∈ removed past, number < (made past).length)
    (event event' : StoreEvent) (listener : ListenerId) :
    kept event' (past ++ [.register event listener]) =
      kept event' past ++ if event = event' then [((made past).length, listener)] else [] := by
  have hmade : made (past ++ [.register event listener]) = made past ++ [(event, listener)] := by
    simp [made, Use.registration?]
  have hremoved : removed (past ++ [.register event listener]) = removed past := by
    simp [removed, Use.removed?]
  have hnew : (made past).length ∉ removed past := fun hmem => Nat.lt_irrefl _ (h _ hmem)
  unfold kept
  rw [hmade, hremoved, List.zipIdx_append, List.filterMap_append]
  by_cases he : event = event' <;> simp [he, hnew]

namespace HandedOut

/-- The registration whose remover is called was made before. -/
theorem number_lt (h : HandedOut uses) {number : Nat}
    (hpre : past ++ [.remove number] <+: uses) : number < (made past).length := by
  obtain ⟨rest, rfl⟩ := hpre
  have hlast := h past.length (by simp) number (by simp [Use.removed?])
  rwa [List.append_assoc, List.take_left] at hlast

theorem of_prefix (h : HandedOut uses) (hpre : past <+: uses) : HandedOut past := by
  obtain ⟨rest, rfl⟩ := hpre
  intro k hk number hnumber
  have hlast := h k (by rw [List.length_append]; omega) number
  rw [List.getElem?_append_left hk, List.take_append_of_le_length (Nat.le_of_lt hk)] at hlast
  exact hlast hnumber

theorem removed_lt (h : HandedOut uses) :
    ∀ number ∈ removed uses, number < (made uses).length := by
  intro number hmem
  obtain ⟨use, hmem, huse⟩ := List.mem_filterMap.mp hmem
  obtain ⟨past, rest, rfl⟩ := List.mem_iff_append.mp hmem
  cases use <;> cases huse
  have hpast : number < (made past).length := h.number_lt ⟨rest, by simp⟩
  rw [made_append, List.length_append]
  omega

end HandedOut

/-! ## Whole histories -/

/-- The listeners that are registered are those whose own remover was not called. -/
def LeavesKept (uses : List Use) : Prop :=
  ∀ event, (after {} (changes uses)).listeners event = (kept event uses).map (·.2)

/-- The remover that is called takes away its own registration, as far as can be observed. -/
def TakesOwn (past : List Use) (number : Nat) : Prop :=
  ∀ event listener, (made past)[number]? = some (event, listener) →
    OwnFirst (kept event past) number listener

/-- A request that neither registers nor unregisters leaves the listeners as they are. -/
theorem LeavesKept.concat_other {c : Change} (h : LeavesKept past) {use : Use}
    (hchange : use.change? (made past) = some c)
    (hregistrations : ∀ registrations, c.onRegistrations registrations = registrations)
    (hmade : use.registration? = none) (hremoved : use.removed? = none) :
    LeavesKept (past ++ [use]) := by
  intro event
  have hkept : kept event (past ++ [use]) = kept event past := by
    simp [kept, made, removed, hmade, hremoved]
  rw [hkept, ← h event, changes_concat, hchange, after_append]
  unfold listeners
  rw [after_registrations (after {} (changes past))]
  simp [hregistrations]

/-- A registration is kept as long as its remover is not called. -/
theorem LeavesKept.concat_register (h : LeavesKept past)
    (hremoved : ∀ number ∈ removed past, number < (made past).length) (event : StoreEvent)
    (listener : ListenerId) : LeavesKept (past ++ [.register event listener]) := by
  intro event'
  rw [kept_register hremoved, List.map_append, ← h event', changes_concat, after_append]
  refine (listeners_register _ event event' listener).trans ?_
  by_cases he : event = event' <;> simp [he]

/-- When a remover is called, what it leaves is right exactly when it takes away its own. -/
theorem LeavesKept.concat_remove_iff (h : LeavesKept past) {number : Nat}
    (hnumber : number < (made past).length) :
    LeavesKept (past ++ [.remove number]) ↔ TakesOwn past number := by
  obtain ⟨⟨event, listener⟩, hmade⟩ : ∃ r, (made past)[number]? = some r :=
    ⟨_, List.getElem?_eq_getElem hnumber⟩
  have hlisteners (event' : StoreEvent) :
      (after {} (changes (past ++ [.remove number]))).listeners event' =
        if event = event' then ((kept event' past).map (·.2)).erase listener
        else (kept event' past).map (·.2) := by
    rw [← h event', changes_concat, after_append, Use.change?, hmade]
    exact listeners_unregister _ event event' listener
  have hown {event' : StoreEvent} (r : Nat × ListenerId) (hr : r ∈ kept event' past)
      (hsame : r.1 = number) : event' = event ∧ r.2 = listener := by
    have hmade' := (mem_kept.mp hr).1
    rw [hsame, hmade] at hmade'
    obtain ⟨rfl, rfl⟩ := Prod.mk.inj (Option.some.inj hmade')
    exact ⟨rfl, rfl⟩
  have hfirst := erase_eq_iff_ownFirst (kept_order event past) fun r hr hsame => (hown r hr hsame).2
  constructor
  · intro hleft event' listener' hmade'
    obtain ⟨rfl, rfl⟩ := Prod.mk.inj (Option.some.inj (hmade.symm.trans hmade'))
    have hevent := hleft event
    rw [hlisteners, if_pos rfl, kept_remove] at hevent
    exact hfirst.mp hevent
  · intro htakes event'
    rw [hlisteners, kept_remove]
    by_cases he : event = event'
    · subst he
      rw [if_pos rfl]
      exact hfirst.mpr (htakes event listener hmade)
    · rw [if_neg he, List.filter_eq_self.mpr]
      exact fun r hr => decide_eq_true fun hsame => he (hown r hr hsame).1.symm

/-- A request leaves the kept registrations, exactly when it is not a remover that takes away
another one. -/
theorem LeavesKept.concat_iff (h : LeavesKept past) {use : Use}
    (hhanded : HandedOut (past ++ [use])) :
    LeavesKept (past ++ [use]) ↔ ∀ number, use = .remove number → TakesOwn past number := by
  cases use with
  | add obj => exact iff_of_true (h.concat_other rfl (fun _ => rfl) rfl rfl) nofun
  | delete id => exact iff_of_true (h.concat_other rfl (fun _ => rfl) rfl rfl) nofun
  | register event listener =>
    have hpast : HandedOut past := hhanded.of_prefix (List.prefix_append _ _)
    exact iff_of_true (h.concat_register hpast.removed_lt event listener) nofun
  | remove number =>
    rw [h.concat_remove_iff (hhanded.number_lt (List.prefix_refl _))]
    exact ⟨fun htakes _ heq => Use.remove.inj heq ▸ htakes, fun htakes => htakes number rfl⟩

/-- At every moment of a history the kept registrations are left, exactly when every remover that
is called takes away its own. By induction on the history, from its end. -/
theorem leavesKept_iff (h : HandedOut uses) :
    (∀ past, past <+: uses → LeavesKept past) ↔
      ∀ past number, past ++ [.remove number] <+: uses → TakesOwn past number := by
  induction uses using List.reverseRecOn with
  | nil =>
    constructor
    · intro _ past number hpre
      simp at hpre
    · intro _ past hpre event
      obtain rfl := List.prefix_nil.mp hpre
      rfl
  | append_singleton uses use ih =>
    have hhanded : HandedOut uses := h.of_prefix (List.prefix_append _ _)
    simp only [List.prefix_concat_iff, List.append_singleton_inj, or_imp, forall_and, ← ih hhanded]
    constructor
    · rintro ⟨huse, hpast⟩
      refine ⟨fun past number hlast => ?_, hpast⟩
      obtain ⟨rfl, rfl⟩ := hlast
      exact ((hpast _ (List.prefix_refl _)).concat_iff h).mp (huse _ rfl) number rfl
    · rintro ⟨hlast, hpast⟩
      refine ⟨fun past heq => heq ▸ ?_, hpast⟩
      exact ((hpast _ (List.prefix_refl _)).concat_iff h).mpr fun number heq =>
        hlast uses number ⟨rfl, heq.symm⟩

/-- Where no listener is registered for an event twice, every remover takes away its own. -/
theorem takesOwn_of_nodup (h : (made past).Nodup) (number : Nat) : TakesOwn past number := by
  intro event listener hmade first hfirst hlistener
  obtain ⟨hmade', hleft⟩ := mem_kept.mp hfirst
  rw [hlistener] at hmade'
  have hnumber {k : Nat} (hk : (made past)[k]? = some (event, listener)) : k = number := by
    have hlt := (List.getElem?_eq_some_iff.mp hk).1
    exact (List.getElem?_inj hlt h).mp (hk.trans hmade.symm)
  obtain rfl := hnumber hmade'
  refine ⟨mem_kept.mpr ⟨hmade, hleft⟩, fun r hr hle hge => ?_⟩
  have hsame := (mem_kept.mp hr).1
  rw [Nat.le_antisymm hge hle, hmade] at hsame
  exact (Prod.mk.inj (Option.some.inj hsame)).2.symm

/-- **Removers take away their own registrations, except where a listener stands twice.** At every
moment of a history in which no remover is called before it was handed out, the registrations left
are those whose own remover was not called, in the order in which they were made, exactly when at
every call of a remover nobody else's registration stands between its own and an earlier one of
the same listener, or its own is gone and no other of its listener is left. So it is when no
listener is registered for an event twice, however often removers are called. -/
theorem listeners_eq_kept_iff {uses : List Use} (h : HandedOut uses) :
    ((∀ past, past <+: uses → LeavesKept past) ↔
      ∀ past number, past ++ [.remove number] <+: uses → TakesOwn past number) ∧
    ((made uses).Nodup → ∀ past, past <+: uses → LeavesKept past) := by
  refine ⟨leavesKept_iff h, fun hnodup => (leavesKept_iff h).mpr fun past number hpre => ?_⟩
  refine takesOwn_of_nodup (hnodup.sublist ?_) number
  exact ((List.prefix_append past _).trans hpre).sublist.filterMap _

/-- A listener that is registered for both events, and one whose removers are called again and
again, once between two registrations that are not made for one event. -/
theorem listeners_eq_kept_iff_again :
    ∃ uses : List Use, HandedOut uses ∧ (made uses).Nodup ∧ removed uses = [1, 0, 1, 0] ∧
      kept .added uses = [(2, 1)] ∧ LeavesKept uses ∧
      (after {} (changes uses)).listeners .added = [1] := by
  let uses : List Use :=
    [.register .added 0, .register .deleted 0, .remove 1, .register .added 1, .remove 0, .remove 1,
      .remove 0]
  have hhanded : HandedOut uses := by decide
  have hnodup : (made uses).Nodup := by decide
  exact ⟨uses, hhanded, hnodup, rfl, rfl,
    (listeners_eq_kept_iff hhanded).2 hnodup uses (List.prefix_refl _), rfl⟩

/-- **A remover that is called twice takes away another registration of its listener**, and one
that is called before that of an earlier registration changes the order of the listeners. -/
theorem remover_takes_another :
    (∃ once : List Use, HandedOut (once ++ [.remove 1]) ∧ removed once = [1] ∧
      kept .added (once ++ [.remove 1]) = [(0, 0)] ∧
      (after {} (changes once)).listeners .added = [0] ∧
      (after {} (changes (once ++ [.remove 1]))).listeners .added = []) ∧
    ∃ uses : List Use, HandedOut uses ∧ kept .added uses = [(0, 0), (1, 1)] ∧
      (after {} (changes uses)).listeners .added = [1, 0] :=
  ⟨⟨[.register .added 0, .register .added 0, .remove 1], by decide, rfl, rfl, rfl, rfl⟩,
    ⟨[.register .added 0, .register .added 1, .register .added 0, .remove 2], by decide, rfl, rfl⟩⟩

end AppSynthesis.Store
