/-
AppSynthesis.Proofs.CommandLine.Reading — what is read from a command line is declared.

* `CommandLine.Taken.Declared` — an operand, or an option of a grammar, with a value if it takes
  one and without if it takes none.
* `CommandLine.Grammar.read_declared` — whatever words there are, nothing else is taken from
  them.
-/
import AppSynthesis.CommandLine.Grammar
import AppSynthesis.Proofs.Schema.Fields

namespace AppSynthesis.CommandLine

/-- What a grammar lets be taken. -/
inductive Taken.Declared (g : Grammar) : Taken → Prop
  | plain {f : Flag} : f ∈ g.flags → f.takesValue = false → Declared g (.flag f none)
  | valued {f : Flag} {value : String} : f ∈ g.flags → f.takesValue = true →
    Declared g (.flag f (some value))
  | operand {words : List String} : Declared g (.operand words)

namespace Grammar

variable {g : Grammar}

/-! ## Words -/

theorem mem_flags_of_spelling {s : String} {f : Flag} (h : (s, f) ∈ g.spellings) : f ∈ g.flags := by
  obtain ⟨f', hf', hmem⟩ := List.mem_flatMap.mp h
  obtain ⟨_, _, he⟩ := List.mem_map.mp hmem
  obtain ⟨-, rfl⟩ := Prod.mk.inj he
  exact hf'

theorem mem_flags_of_find? {s : String} {f : Flag} (h : g.find? s = some f) : f ∈ g.flags := by
  obtain ⟨⟨s', f'⟩, hfind, rfl⟩ := Option.map_eq_some_iff.mp h
  exact mem_flags_of_spelling (List.mem_of_find?_eq_some hfind)

theorem mem_flags_of_matching {word s : String} {f : Flag} {value : Option Attached}
    (h : (f, s, value) ∈ g.matching word) : f ∈ g.flags := by
  unfold matching at h
  split at h
  · obtain ⟨⟨s', f'⟩, hmem, he⟩ := List.mem_map.mp h
    obtain ⟨rfl, -⟩ := Prod.mk.inj he
    exact mem_flags_of_spelling (List.mem_filter.mp hmem).1
  · obtain ⟨⟨s', f'⟩, hmem, he⟩ := List.mem_filterMap.mp h
    dsimp only at he
    split at he
    · cases he
      exact mem_flags_of_spelling hmem
    · split at he
      · cases he
        exact mem_flags_of_spelling hmem
      · cases he
  · cases h

/-- A word that stands for an option stands for one of the grammar. -/
theorem mem_flags_of_classify {word s : String} {f : Flag} {value : Option Attached}
    (h : g.classify word = .ok (.known f s value)) : f ∈ g.flags := by
  unfold classify at h
  dsimp only at h
  split at h
  · cases h
  · split at h
    · rename_i hfind
      cases h
      exact mem_flags_of_find? hfind
    · split at h
      · rename_i hfind
        cases h
        exact mem_flags_of_find? hfind
      · split at h
        · rename_i hmatching
          cases h
          exact mem_flags_of_matching (hmatching ▸ List.mem_cons_self)
        · cases h
        · split at h <;> cases h

/-- Words that were classified, with the options of a grammar only. -/
def AllKnown (g : Grammar) (words : List (String × Word)) : Prop :=
  ∀ w f s value, (w, Word.known f s value) ∈ words → f ∈ g.flags

theorem AllKnown.tail {entry : String × Word} {rest : List (String × Word)}
    (h : g.AllKnown (entry :: rest)) : g.AllKnown rest :=
  fun w f s value hmem => h w f s value (List.mem_cons_of_mem entry hmem)

theorem allKnown_classifyAll {words : List String} {classified : List (String × Word)}
    (h : g.classifyAll words = .ok classified) : g.AllKnown classified := by
  fun_induction classifyAll g words generalizing classified with
  | case1 =>
    cases h
    exact nofun
  | case2 rest =>
    cases h
    intro w f s value hmem
    simp at hmem
  | case3 w rest _ ih =>
    obtain ⟨word, hword, h⟩ := bind_eq_ok.mp h
    obtain ⟨classified', hrest, h⟩ := bind_eq_ok.mp h
    cases h
    intro w' f s value hmem
    rcases List.mem_cons.mp hmem with he | hmem
    · cases he
      exact mem_flags_of_classify hword
    · exact ih hrest w' f s value hmem

end Grammar

/-! ## Clusters -/

/-- The options of a cluster are those of a grammar, and only the last one takes a value. -/
structure Cluster.Declared (g : Grammar) (c : Cluster) : Prop where
  flags : ∀ f ∈ c.flags, f ∈ g.flags ∧ f.takesValue = false
  last : ∀ l ∈ c.last, l.1 ∈ g.flags ∧ l.1.takesValue = true

variable {g : Grammar} {f : Flag} {c : Cluster}

theorem Cluster.Declared.after (h : c.Declared g) (hf : f ∈ g.flags)
    (hplain : f.takesValue = false) : (c.after f).Declared g :=
  ⟨List.forall_mem_cons.mpr ⟨⟨hf, hplain⟩, h.flags⟩, h.last⟩

/-- One option without a value, and one with a value. -/
theorem Cluster.declared_plain {unused : Option String} (hf : f ∈ g.flags)
    (hplain : f.takesValue = false) : Cluster.Declared g { flags := [f], unused } :=
  ⟨List.forall_mem_singleton.mpr ⟨hf, hplain⟩, nofun⟩

theorem Cluster.declared_last {value : Option String} (hf : f ∈ g.flags)
    (htakes : f.takesValue = true) : Cluster.Declared g { last := some (f, value) } := by
  refine ⟨nofun, ?_⟩
  rintro _ ⟨⟩
  exact ⟨hf, htakes⟩

/-- **A word of options is split into declared ones.** -/
theorem Grammar.cluster_declared {short afterEquals : Bool} {text : Option (List Char)}
    (hf : f ∈ g.flags) (h : g.cluster f short afterEquals text = .ok c) : c.Declared g := by
  fun_induction cluster g f short afterEquals text generalizing c with
  | case1 f short afterEquals =>
    obtain rfl := Except.ok.inj h
    split
    · rename_i htakes
      exact Cluster.declared_last hf htakes
    · rename_i hplain
      exact Cluster.declared_plain hf (Bool.eq_false_iff.mpr hplain)
  | case2 f short afterEquals value htakes =>
    obtain rfl := Except.ok.inj h
    exact Cluster.declared_last hf htakes
  | case3 f short afterEquals hplain => cases h
  | case4 f short afterEquals hplain c rest hrefused => cases h
  | case5 f short afterEquals hplain c rest haccepted hfind =>
    obtain rfl := Except.ok.inj h
    exact Cluster.declared_plain hf (Bool.eq_false_iff.mpr hplain)
  | case6 f short afterEquals hplain c haccepted next hfind ih =>
    obtain ⟨c', hc', rfl⟩ := map_eq_ok.mp h
    exact (ih (mem_flags_of_find? hfind) hc').after hf (Bool.eq_false_iff.mpr hplain)
  | case7 f short afterEquals hplain c haccepted next hfind rest ih =>
    obtain ⟨c', hc', rfl⟩ := map_eq_ok.mp h
    exact (ih (mem_flags_of_find? hfind) hc').after hf (Bool.eq_false_iff.mpr hplain)
  | case8 f short afterEquals hplain c haccepted next hfind d rest hd ih =>
    obtain ⟨c', hc', rfl⟩ := map_eq_ok.mp h
    exact (ih (mem_flags_of_find? hfind) hc').after hf (Bool.eq_false_iff.mpr hplain)

/-! ## Readings -/

/-- A reading of declared options and operands. -/
def Reading.Declared (g : Grammar) (r : Reading) : Prop := ∀ t ∈ r.taken, t.Declared g

namespace Reading.Declared

variable {r : Reading}

theorem take {t : Taken} (h : r.Declared g) (ht : t.Declared g) : (r.take t).Declared g :=
  List.forall_mem_cons.mpr ⟨ht, h⟩

theorem takeAll (h : r.Declared g) : ∀ {flags : List Flag},
    (∀ f ∈ flags, f ∈ g.flags ∧ f.takesValue = false) → (r.takeAll flags).Declared g
  | [], _ => h
  | _ :: _, hflags =>
    have ⟨⟨hf, hplain⟩, hrest⟩ := List.forall_mem_cons.mp hflags
    (h.takeAll hrest).take (.plain hf hplain)

end Reading.Declared

namespace Grammar

/-- Classified words that know declared options only are read so. By induction on what is left of
them: a word of options may take the next word with it, as a value. -/
theorem readFrom_declared {due : Bool} {words : List (String × Word)} (hwords : g.AllKnown words) :
    (g.readFrom due words).Declared g := by
  fun_induction readFrom g due words with
  | case1 due => exact nofun
  | case2 due w rest ih => exact ih hwords.tail
  | case3 due w f spelling value rest e hcluster => exact nofun
  | case4 due w f spelling value rest c hcluster hlast r ih =>
    have hc := cluster_declared (hwords w f spelling value List.mem_cons_self) hcluster
    have hr : Reading.Declared g { r with unused := c.unused.toList ++ r.unused } := ih hwords.tail
    exact hr.takeAll hc.flags
  | case5 due w f spelling value rest c hcluster last v hlast ih =>
    have hc := cluster_declared (hwords w f spelling value List.mem_cons_self) hcluster
    obtain ⟨hflag, htakes⟩ := hc.last _ hlast
    exact ((ih hwords.tail).take (.valued hflag htakes)).takeAll hc.flags
  | case6 due w f spelling value c hcluster last hlast v rest ih =>
    have hc := cluster_declared (hwords w f spelling value List.mem_cons_self) hcluster
    obtain ⟨hflag, htakes⟩ := hc.last _ hlast
    exact ((ih hwords.tail.tail).take (.valued hflag htakes)).takeAll hc.flags
  | case7 due w f spelling value rest c hcluster last hlast hnone => exact nofun
  | case8 due s w next rest hdue ih => exact ih hwords.tail
  | case9 due s w next rest hdue hrest =>
    exact List.forall_mem_singleton.mpr .operand
  | case10 due s w next rest hdue hrest ih => exact (ih hwords.tail.tail).take .operand
  | case11 due s => exact nofun
  | case12 due w rest hdue ih => exact ih hwords.tail
  | case13 due w rest hdue hrest => exact List.forall_mem_singleton.mpr .operand
  | case14 due w hdue hrest s rest ih => exact (ih hwords.tail.tail).take .operand
  | case15 due w hdue hrest rest hnone ih => exact (ih hwords.tail).take .operand

/-- **Nothing is read but what the grammar declares.** -/
theorem read_declared (g : Grammar) (words : List String) : (g.read words).Declared g := by
  unfold read
  split
  · exact nofun
  · rename_i hclassified
    exact readFrom_declared (allKnown_classifyAll hclassified)

end Grammar

end AppSynthesis.CommandLine
