/-
AppSynthesis.Proofs.Value.Spelling — what values that agree may differ in.

* `Value.head` — what stands at a place, without what is inside of it; `Value.Identical`, that the
  same stands at all places of two values, down to how numbers are spelled.
* `Value.Alike` — at each place of two values there stands the same, but numbers may be spelled
  in another way; `Value.Respells`, besides that there are text keys and no timestamps.
* `Value.spelling` — truth values, integers and floating-point numbers are spelled in different
  ways. `Value.Respells.identical_iff`, nothing else is to be told apart in values that are alike.
* `Value.respells_list`, `Value.respells_map` — collections are alike when what is in them is.
* `Value.respells_of_agrees` — values that agree are alike.
* `Value.Respells.without` — a map stays alike another when one key is left out of both.

A map that agrees with another may have no more keys than that other, and none of its own. That
it has them all is a matter of counting: its keys are distinct, and the two are of one length
(`Entries.rel_get?`).
-/
import Mathlib.Data.List.Forall2
import Mathlib.Data.List.Perm.Basic
import AppSynthesis.Proofs.Value.Distinct
import AppSynthesis.Proofs.Value.Path

namespace AppSynthesis

/-! ## Heads -/

namespace Value

/-- What stands at a place, without what is inside of it. -/
def head : Value → Value
  | .list _ _ => .list none []
  | .map _ _ => .map none []
  | v => v

theorem head_agrees_self (v : Value) : v.head.agrees v.head = true :=
  agrees_self _ (by cases v <;> rfl)

/-- The same stands at each place of two values, or nothing in either. The order of the keys of a
map makes no difference to what is at a place. -/
def Identical (v w : Value) : Prop := ∀ p, (v.at? p).map head = (w.at? p).map head

/-- What stands at a place of two values agrees, without what is inside of it, or there is
nothing in either. -/
def AlikeAt (p : Path) (v w : Value) : Prop :=
  Option.Rel (fun u u' => u.head.agrees u'.head = true) (v.at? p) (w.at? p)

/-- So it is at all places. -/
def Alike (v w : Value) : Prop := ∀ p, AlikeAt p v w

/-- A value with text keys and without timestamps that is alike another. -/
structure Respells (v w : Value) : Prop where
  json : v.isJson = true
  alike : v.Alike w

/-- The ways to spell a number; zero is spelled with a sign in floating point. -/
inductive Spelling where
  | truth
  | whole
  | floating (negative : Bool)
  | other
  deriving DecidableEq, Repr

/-- How a value is spelled. -/
def spelling : Value → Spelling
  | .bool _ => .truth
  | .int _ => .whole
  | .float (.finite negative _) => .floating negative
  | _ => .other

/-- **Nothing but its spelling tells a number from one it agrees with**, and nothing at all tells
other values. -/
theorem head_eq_iff {v w : Value} (h : v.head.agrees w.head = true) (hw : w.isJson = true) :
    v.head = w.head ↔ v.spelling = w.spelling := by
  rcases v with _ | _ | _ | (_ | _ | _) | _ | _ | _ | _ <;>
    rcases w with _ | _ | _ | (_ | _ | _) | _ | _ | _ | _ <;>
    simp_all [head, spelling, agrees, same, isNaN, isJson, Binary64.sameNumber,
      Binary64.sameInt_nan, Binary64.sameInt_infinite]
  rintro rfl
  exact Binary64.signedUnits_inj.mp h

/-- Two values have their numbers spelled in the same way, wherever both have something. -/
def SpelledAlike (v w : Value) : Prop :=
  ∀ p u u', v.at? p = some u → w.at? p = some u' → u.spelling = u'.spelling

/-- **Values that are alike are identical when their numbers are spelled alike**, and only then. -/
theorem Respells.identical_iff {v w : Value} (h : v.Respells w) (hw : w.isJson = true) :
    v.Identical w ↔ v.SpelledAlike w := by
  constructor
  · intro hsame p u u' hu hu'
    have halike := h.alike p
    have hhead := hsame p
    rw [AlikeAt, hu, hu'] at halike
    rw [hu, hu'] at hhead
    obtain ⟨halike⟩ := halike
    exact (head_eq_iff halike (isJson_at hw hu')).mp (Option.some.inj hhead)
  · intro hspelled p
    have halike := h.alike p
    unfold AlikeAt at halike
    rcases hu : v.at? p with _ | u <;> rcases hu' : w.at? p with _ | u' <;>
      simp only [hu, hu'] at halike
    · rfl
    · cases halike
    · cases halike
    · obtain ⟨halike⟩ := halike
      exact congrArg some ((head_eq_iff halike (isJson_at hw hu')).mpr (hspelled p u u' hu hu'))

end Value

/-! ## Members at the same places -/

theorem rel_bind {α β γ δ : Type} {R : α → β → Prop} {S : γ → δ → Prop} {f : α → Option γ}
    {g : β → Option δ} (hfg : ∀ x y, R x y → Option.Rel S (f x) (g y)) {a : Option α}
    {b : Option β} (h : Option.Rel R a b) : Option.Rel S (a.bind f) (b.bind g) := by
  cases h with
  | none => exact .none
  | some hxy => exact hfg _ _ hxy

/-- Lists that are related item by item are so at each place. -/
theorem rel_getElem? {α β : Type} {R : α → β → Prop} {a : List α} {b : List β}
    (h : List.Forall₂ R a b) (i : Nat) : Option.Rel R a[i]? b[i]? := by
  induction h generalizing i with
  | nil => exact .none
  | cons hR _ ih =>
    cases i with
    | zero => exact .some hR
    | succ i => exact ih i

/-- **A map has the keys of another** if its own are distinct, each is a key of the other, and it
has as many. -/
theorem Entries.rel_get? {R : Value → Value → Prop} {a b : Entries}
    (hkeys : (a.map (·.1)).Nodup) (hlength : a.length = b.length)
    (h : ∀ e ∈ a, ∃ name v, e.1 = .str name ∧ get? b name = some v ∧ R e.2 v) (name : String) :
    Option.Rel R (get? a name) (get? b name) := by
  have hfound {v : Value} (hv : get? a name = some v) : ∃ w, get? b name = some w ∧ R v w := by
    obtain ⟨name', w, hname, hw, hR⟩ := h _ (mem_of_get? hv)
    obtain rfl := Value.str.inj hname
    exact ⟨w, hw, hR⟩
  rcases hv : get? a name with _ | v
  · rcases hw : get? b name with _ | w
    · exact .none
    · -- The keys of the one are those of the other, so this one is a key of both.
      have hsubset : a.map (·.1) ⊆ b.map (·.1) := fun k hk => by
        obtain ⟨e, he, rfl⟩ := List.mem_map.mp hk
        obtain ⟨name', v, hname, hget, -⟩ := h e he
        exact List.mem_map.mpr ⟨_, mem_of_get? hget, hname.symm⟩
      have hperm : (a.map (·.1)).Perm (b.map (·.1)) :=
        (List.subperm_of_subset hkeys hsubset).perm_of_length_le (by simp [hlength])
      have hmem : Value.str name ∈ a.map (·.1) :=
        hperm.mem_iff.mpr (List.mem_map.mpr ⟨_, mem_of_get? hw, rfl⟩)
      obtain ⟨⟨_, v⟩, he, rfl⟩ := List.mem_map.mp hmem
      cases hv.symm.trans (get?_of_mem hkeys he)
  · obtain ⟨w, hw, hR⟩ := hfound hv
    rw [hw]
    exact .some hR

/-! ## Alike by parts -/

namespace Value

theorem alike_self (v : Value) : v.Alike v := by
  intro p
  unfold AlikeAt
  rcases v.at? p with _ | u
  · exact .none
  · exact .some u.head_agrees_self

theorem respells_self {v : Value} (h : v.isJson = true) : v.Respells v := ⟨h, v.alike_self⟩

/-- Atomic values have nothing inside. -/
theorem alike_of_isAtomic {v w : Value} (hv : v.isAtomic = true) (hw : w.isAtomic = true)
    (h : v.agrees w = true) : v.Alike w := by
  have hhead {v : Value} (hv : v.isAtomic = true) : v.head = v := by
    cases v <;> first | rfl | cases hv
  have hinside {v : Value} (hv : v.isAtomic = true) (step : Step) (rest : Path) :
      v.at? (step :: rest) = none := by
    cases step <;> cases v <;> first | rfl | cases hv
  intro p
  unfold AlikeAt
  rcases p with _ | ⟨step, rest⟩
  · exact .some (by rwa [hhead hv, hhead hw])
  · rw [hinside hv, hinside hw]
    exact .none

/-- A timestamp agrees with timestamps only. -/
theorem isJson_of_isAtomic {v w : Value} (hv : v.isAtomic = true) (hw : w.isJson = true)
    (h : v.agrees w = true) : v.isJson = true := by
  cases v <;> cases w <;> simp_all [agrees, same, isNaN, isAtomic, isJson]

/-- Null is spelled in one way. -/
theorem Respells.eq_null {v w : Value} (h : v.Respells w) : v = .null ↔ w = .null := by
  obtain ⟨hhead⟩ := h.alike []
  cases v <;> cases w <;> simp_all [head, agrees, same, isNaN]

variable {origin origin' : Origin}

/-- Lists are alike when their items are. -/
theorem respells_list {a b : List Value} (h : List.Forall₂ Respells a b) :
    (list origin a).Respells (list origin' b) := by
  constructor
  · refine itemsJson_iff.mpr fun v hv => ?_
    obtain ⟨i, hi, rfl⟩ := List.getElem_of_mem hv
    exact (h.get hi (h.length_eq ▸ hi)).json
  · rintro (_ | ⟨name | i, rest⟩)
    · exact .some rfl
    · exact .none
    · exact rel_bind (fun _ _ hitem => hitem.alike rest) (rel_getElem? h i)

/-- Maps are alike when what is found under each key is. -/
theorem respells_map {a b : Entries} (hkeys : (a.map (·.1)).Nodup)
    (htext : ∀ e ∈ a, e.1.isText = true)
    (h : ∀ name, Option.Rel Respells (Entries.get? a name) (Entries.get? b name)) :
    (map origin a).Respells (map origin' b) := by
  constructor
  · refine entriesJson_iff.mpr ⟨hkeys, fun e he => ⟨htext e he, ?_⟩⟩
    obtain ⟨name, hname⟩ := exists_str (htext e he)
    have hget : Entries.get? a name = some e.2 := Entries.get?_of_mem hkeys (hname ▸ he)
    have hrel := h name
    rw [hget] at hrel
    generalize Entries.get? b name = found at hrel
    obtain ⟨hrespells⟩ := hrel
    exact hrespells.json
  · rintro (_ | ⟨name | i, rest⟩)
    · exact .some rfl
    · exact rel_bind (fun _ _ hmember => hmember.alike rest) (h name)
    · exact .none

end Value

/-! ## Values that agree -/

namespace Value

theorem sameItems_iff : ∀ {a b : List Value},
    sameItems a b = true ↔ List.Forall₂ (fun v w => v.agrees w = true) a b
  | [], [] => by simp [sameItems]
  | [], _ :: _ => by simp [sameItems]
  | _ :: _, [] => by simp [sameItems]
  | v :: a, w :: b => by
    rw [sameItems, Bool.and_eq_true, sameItems_iff, List.forall₂_cons]
    rfl

/-- Each entry has one with a key and a value that agree. -/
theorem sameEntries_iff {a b : Entries} : sameEntries a b = true ↔
    ∀ e ∈ a, ∃ e', b.find? (fun e' => e.1.agrees e'.1) = some e' ∧ e.2.agrees e'.2 = true := by
  induction a with
  | nil => simp [sameEntries]
  | cons e a ih =>
    obtain ⟨k, v⟩ := e
    rw [sameEntries, Bool.and_eq_true, ih, List.forall_mem_cons]
    refine and_congr_left' ?_
    split
    · rename_i e hfind
      have hfound : b.find? (fun e' => k.agrees e'.1) = some e := hfind
      rw [hfound]
      simp only [Option.some.injEq, exists_eq_left']
      rfl
    · rename_i hfind
      have hnone : b.find? (fun e' => k.agrees e'.1) = none := hfind
      simp [hnone]

/-- Values that agree are both lists, both maps, or both atomic. -/
theorem agrees_cases {v w : Value} (h : v.agrees w = true) :
    (∃ o a o' b, v = .list o a ∧ w = .list o' b ∧ sameItems a b = true) ∨
      (∃ o a o' b, v = .map o a ∧ w = .map o' b ∧ a.length = b.length ∧ sameEntries a b = true) ∨
      (v.isAtomic = true ∧ w.isAtomic = true) := by
  cases v <;> cases w <;> simp_all [agrees, same, isNaN, isAtomic]

/-- What an entry agrees with is found under the same key, if that is text. -/
theorem get?_of_sameEntries {a b : Entries} (h : sameEntries a b = true)
    (hb : ∀ e ∈ b, e.1.isText = true) : ∀ e ∈ a, ∃ name v, e.1 = .str name ∧
      Entries.get? b name = some v ∧ e.2.agrees v = true := by
  intro e he
  obtain ⟨⟨k, v⟩, hfind, hagrees⟩ := sameEntries_iff.mp h e he
  obtain ⟨name, rfl⟩ := exists_str (hb _ (List.mem_of_find?_eq_some hfind))
  have hkey : e.1 = .str name := by simpa using List.find?_some hfind
  have hpred : (fun e' : Value × Value => e.1.agrees e'.1) =
      fun e' => decide (e'.1 = .str name) := by
    funext e'
    rw [hkey, Bool.eq_iff_iff, str_agrees, decide_eq_true_iff]
  refine ⟨name, v, hkey, ?_, hagrees⟩
  unfold Entries.get?
  rw [← hpred, hfind]
  rfl

/-- **Values that agree are alike**, if no map has a key twice in the one and the other has text
keys only. -/
theorem respells_of_agrees {v w : Value} (h : v.agrees w = true) (hv : v.keysDistinct = true)
    (hw : w.isJson = true) : v.Respells w := by
  rcases agrees_cases h with ⟨_, a, _, b, hlist, rfl, hitems⟩ |
    ⟨_, a, _, b, hmap, rfl, hlength, hentries⟩ | ⟨hatomic, hatomic'⟩
  · rw [hlist] at hv ⊢
    have hitems := sameItems_iff.mp hitems
    refine respells_list (List.forall₂_iff_zip.mpr ⟨hitems.length_eq, fun {x y} hxy => ?_⟩)
    obtain ⟨hx, hy⟩ := List.of_mem_zip hxy
    exact respells_of_agrees (List.forall₂_zip hitems hxy) (itemsDistinct_iff.mp hv x hx)
      (itemsJson_iff.mp hw y hy)
  · rw [hmap] at hv ⊢
    obtain ⟨-, hdistinct⟩ := entriesDistinct_iff.mp hv
    obtain ⟨-, hjson⟩ := entriesJson_iff.mp hw
    have hfound := get?_of_sameEntries hentries fun e he => (hjson e he).1
    have htext : ∀ e ∈ a, e.1.isText = true := fun e he => by
      obtain ⟨name, _, hname, -⟩ := hfound e he
      exact hname ▸ rfl
    have hnodup := nodup_of_entriesDistinct hv htext
    refine respells_map hnodup htext (Entries.rel_get? hnodup hlength fun e he => ?_)
    obtain ⟨name, v, hname, hget, hagrees⟩ := hfound e he
    exact ⟨name, v, hname, hget, respells_of_agrees hagrees (hdistinct e he).2
      (hjson _ (Entries.mem_of_get? hget)).2⟩
  · exact ⟨isJson_of_isAtomic hatomic hw h, alike_of_isAtomic hatomic hatomic' h⟩
termination_by sizeOf v
decreasing_by
  · have := List.sizeOf_lt_of_mem hx
    rw [hlist, list.sizeOf_spec]
    omega
  · have := List.sizeOf_lt_of_mem he
    have hpair : sizeOf e = 1 + sizeOf e.1 + sizeOf e.2 := rfl
    rw [hmap, map.sizeOf_spec]
    omega

/-- Values that are alike are alike without a key. -/
theorem Respells.without {v w : Value} (h : v.Respells w) (key : String) :
    (v.without key).Respells (w.without key) := by
  have hhead (v : Value) : (v.without key).head = v.head := by cases v <;> rfl
  refine ⟨isJson_without key h.json, fun p => ?_⟩
  have halike := h.alike p
  unfold AlikeAt at halike ⊢
  rcases p with _ | ⟨step, rest⟩
  · obtain ⟨halike⟩ := halike
    exact .some (by rwa [hhead, hhead])
  · rw [at?_without, at?_without]
    split
    · exact .none
    · exact halike

end Value

end AppSynthesis
