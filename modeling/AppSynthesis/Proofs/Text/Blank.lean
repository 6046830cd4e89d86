/-
AppSynthesis.Proofs.Text.Blank — what trimming leaves.

* `Text.Trimmed` — what is left of text without certain characters at both ends.
* `Text.trimmed_iff` — there is nothing else that trimming could leave.
-/
import Mathlib.Data.List.TakeWhile
import AppSynthesis.Text.Blank

namespace AppSynthesis.Text

variable {p : Char → Bool} {cs ds : List Char}

/-- `ds` is `cs` less characters with `p` at both ends, and has none there itself. -/
structure Trimmed (p : Char → Bool) (cs ds : List Char) : Prop where
  split : ∃ front back, cs = front ++ ds ++ back ∧ (∀ c ∈ front, p c = true) ∧
    ∀ c ∈ back, p c = true
  first : ∀ c, ds.head? = some c → p c = false
  last : ∀ c, ds.getLast? = some c → p c = false

theorem dropWhile_of_first (h : ∀ c, ds.head? = some c → p c = false) : ds.dropWhile p = ds := by
  cases ds with
  | nil => rfl
  | cons c ds => exact List.dropWhile_cons_of_neg (by simp [h c rfl])

theorem first_dropWhile {c : Char} (h : (cs.dropWhile p).head? = some c) : p c = false := by
  have hfirst := List.head?_dropWhile_not p cs
  rw [h] at hfirst
  exact hfirst

theorem trimmed_trimBoth : Trimmed p cs (trimBoth p cs) := by
  unfold trimBoth
  have hfront : cs.takeWhile p ++ cs.dropWhile p = cs := List.takeWhile_append_dropWhile
  have hinner (c : Char) (hc : (cs.dropWhile p).head? = some c) : p c = false := first_dropWhile hc
  generalize cs.dropWhile p = inner at *
  have hback : (inner.reverse.dropWhile p).reverse ++ (inner.reverse.takeWhile p).reverse =
      inner := by
    rw [← List.reverse_append, List.takeWhile_append_dropWhile, List.reverse_reverse]
  constructor
  · refine ⟨cs.takeWhile p, (inner.reverse.takeWhile p).reverse, ?_, ?_, ?_⟩
    · rw [List.append_assoc, hback, hfront]
    · exact fun c => List.mem_takeWhile_imp
    · exact fun c hc => List.mem_takeWhile_imp (List.mem_reverse.mp hc)
  · intro c hc
    -- What is left begins where it began before its end was taken off.
    apply hinner
    rw [← hback, List.head?_append, hc, Option.some_or]
  · intro c hc
    rw [List.getLast?_reverse] at hc
    exact first_dropWhile hc

/-- **What trimming leaves.** -/
theorem trimmed_iff : Trimmed p cs ds ↔ ds = trimBoth p cs := by
  constructor
  · rintro ⟨⟨front, back, rfl, hfront, hback⟩, hfirst, hlast⟩
    unfold trimBoth
    rw [List.append_assoc, List.dropWhile_append_of_pos hfront]
    by_cases hnil : ds = []
    · subst hnil
      simp [List.dropWhile_eq_nil_iff.mpr hback]
    · have hfirst' (c : Char) (hc : (ds ++ back).head? = some c) : p c = false :=
        hfirst c (by rwa [List.head?_append, List.head?_eq_some_head hnil, Option.some_or,
          ← List.head?_eq_some_head hnil] at hc)
      have hlast' (c : Char) (hc : ds.reverse.head? = some c) : p c = false :=
        hlast c (List.head?_reverse ▸ hc)
      rw [dropWhile_of_first hfirst', List.reverse_append,
        List.dropWhile_append_of_pos (by simpa using hback), dropWhile_of_first hlast',
        List.reverse_reverse]
  · rintro rfl
    exact trimmed_trimBoth

/-- Text with nothing to trim at either end. -/
theorem trimBoth_eq_self (hfirst : ∀ c, cs.head? = some c → p c = false)
    (hlast : ∀ c, cs.getLast? = some c → p c = false) : trimBoth p cs = cs :=
  (trimmed_iff.mp ⟨⟨[], [], by simp⟩, hfirst, hlast⟩).symm

end AppSynthesis.Text
