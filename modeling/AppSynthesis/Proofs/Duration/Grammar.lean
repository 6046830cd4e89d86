/-
AppSynthesis.Proofs.Duration.Grammar — which texts are durations.

* `Duration.Body`, `Duration.Form` — a zero by itself or parts, and the same behind an optional
  sign; `Duration.Grammar`, the texts that are so once the blanks around them are taken off.
* `Duration.Scan` — parts taken off a text one after the other. `Duration.exists_scan`, that
  this ends: of all scans of a text one goes on until no part follows.
* `Duration.parts?_eq_some_iff` — a text is split into those parts that it is the spelling of,
  and `Duration.written_inj`, there is one such split at most.
* `Duration.parse_eq_malformed_iff`, `parseDuration_grammar` — the texts that are refused as
  malformed are those outside the grammar.

A number is read as far as its digits go and a unit as long as it can be, and neither choice is
ever taken back. That loses nothing because no unit begins with a digit or a point and no part
begins with the letter that continues a unit (`Duration.parts?_written`). It finds nothing that
is not there either, since what is read is taken off the text as it is spelled.
-/
import AppSynthesis.Duration.Argument
import AppSynthesis.Proofs.Duration.Parts
import AppSynthesis.Proofs.Text.Blank

namespace AppSynthesis.Duration

/-! ## The grammar -/

/-- Durations without their sign: a zero by itself, or parts, one at least. -/
inductive Body : List Char → Prop
  | zero : Body ['0']
  | parts {parts : List Part} : parts ≠ [] → (∀ p ∈ parts, p.Valid) →
    Body (parts.flatMap Part.written)

/-- Durations with their sign, if they have one. -/
def Form (cs : List Char) : Prop :=
  ∃ (sign : Option Char) (body : List Char), cs = sign.toList ++ body ∧
    (∀ c ∈ sign, c = '+' ∨ c = '-') ∧ Body body

/-- The texts that are durations once the blanks around them are taken off. -/
def Grammar (s : String) : Prop := ∃ inner, Text.Trimmed Text.isBlank s.toList inner ∧ Form inner

/-! ## Scanning -/

/-- What is read as a part has a number. -/
theorem valid_of_part? {cs rest : List Char} {p : Part} (h : part? cs = some (p, rest)) :
    p.Valid := by
  have hdigit {ds : List Char} {c : Char} (hc : c ∈ ds.takeWhile Text.isDigit) :
      Text.isDigit c = true := List.mem_takeWhile_imp hc
  unfold part? at h
  split at h
  · cases h
  · rename_i whole fraction tail hnumber
    obtain ⟨_, _, hp⟩ := Option.map_eq_some_iff.mp h
    obtain ⟨rfl, -⟩ := Prod.mk.inj hp
    unfold number? at hnumber
    simp only at hnumber
    split at hnumber
    · split at hnumber
      · cases hnumber
      · rename_i hsome
        obtain ⟨rfl, rfl, -⟩ : _ ∧ _ ∧ _ := by simpa using hnumber
        refine ⟨fun c => hdigit, fun digits hdigits c hc => ?_, ?_⟩
        · obtain rfl := Option.some.inj hdigits
          exact hdigit hc
        · simpa [or_iff_not_imp_left] using hsome
    · split at hnumber
      · cases hnumber
      · rename_i hsome
        obtain ⟨rfl, rfl, -⟩ : _ ∧ _ ∧ _ := by simpa using hnumber
        exact ⟨fun c => hdigit, nofun, Or.inl (by simpa using hsome)⟩

/-- Parts are taken off a text one after the other. -/
inductive Scan : List Char → List Part → List Char → Prop
  | done {cs : List Char} : Scan cs [] cs
  | part {cs next rest : List Char} {p : Part} {parts : List Part} :
    part? cs = some (p, next) → Scan next parts rest → Scan cs (p :: parts) rest

namespace Scan

variable {cs rest rest' : List Char} {parts parts' : List Part}

/-- Their spelling is what is gone from the text. -/
theorem eq_append (h : Scan cs parts rest) : cs = parts.flatMap Part.written ++ rest := by
  induction h with
  | done => rfl
  | part hpart _ ih => rw [eq_of_part? hpart, List.flatMap_cons, List.append_assoc, ← ih]

theorem valid (h : Scan cs parts rest) : ∀ p ∈ parts, p.Valid := by
  induction h with
  | done => exact nofun
  | part hpart _ ih => exact List.forall_mem_cons.mpr ⟨valid_of_part? hpart, ih⟩

/-- A scan goes the way of every scan that goes on until no part follows. -/
theorem isPrefix (h : Scan cs parts rest) (h' : Scan cs parts' rest') (hend : part? rest' = none) :
    parts <+: parts' := by
  induction h generalizing parts' with
  | done => exact List.nil_prefix
  | part hpart _ ih =>
    cases h' with
    | done => cases hpart.symm.trans hend
    | part hpart' hscan' =>
      obtain ⟨rfl, rfl⟩ := Prod.mk.inj (Option.some.inj (hpart.symm.trans hpart'))
      exact List.cons_prefix_cons.mpr ⟨rfl, ih hscan'⟩

end Scan

/-- **Scanning ends**: every text has a scan after which no part follows. -/
theorem exists_scan (cs : List Char) : ∃ parts rest, Scan cs parts rest ∧ part? rest = none := by
  rcases hpart : part? cs with _ | ⟨p, next⟩
  · exact ⟨[], cs, .done, hpart⟩
  · obtain ⟨parts, rest, hscan, hend⟩ := exists_scan next
    exact ⟨p :: parts, rest, .part hpart hscan, hend⟩
termination_by cs.length
decreasing_by exact length_of_part? hpart

/-! ## Splitting -/

/-- Parts that a text is split into have been scanned. -/
theorem scan_of_parts? {cs : List Char} {parts : List Part} (h : parts? cs = some parts) :
    parts ≠ [] ∧ Scan cs parts [] := by
  rcases hpart : part? cs with _ | ⟨p, rest⟩
  · rw [parts?_of_none hpart] at h
    cases h
  · rw [parts?_of_part? hpart] at h
    split at h
    · rename_i hrest
      obtain rfl := Option.some.inj h
      obtain rfl := List.isEmpty_iff.mp hrest
      exact ⟨List.cons_ne_nil p [], .part hpart .done⟩
    · obtain ⟨parts', hparts', rfl⟩ := Option.map_eq_some_iff.mp h
      exact ⟨List.cons_ne_nil p parts', .part hpart (scan_of_parts? hparts').2⟩
termination_by cs.length
decreasing_by exact length_of_part? hpart

/-- **A text is split into the parts that it is the spelling of.** -/
theorem parts?_eq_some_iff {cs : List Char} {parts : List Part} : parts? cs = some parts ↔
    parts ≠ [] ∧ (∀ p ∈ parts, p.Valid) ∧ cs = parts.flatMap Part.written := by
  constructor
  · intro h
    obtain ⟨hne, hscan⟩ := scan_of_parts? h
    exact ⟨hne, hscan.valid, hscan.eq_append.trans (List.append_nil _)⟩
  · rintro ⟨hne, hvalid, rfl⟩
    exact parts?_written hne hvalid

/-- Parts are told by their spelling. -/
theorem written_inj {ps qs : List Part} (hps : ∀ p ∈ ps, p.Valid) (hqs : ∀ q ∈ qs, q.Valid) :
    ps.flatMap Part.written = qs.flatMap Part.written ↔ ps = qs := by
  have hnil {parts : List Part} (h : parts.flatMap Part.written = []) : parts = [] :=
    List.eq_nil_iff_forall_not_mem.mpr fun p hp => by
      simpa [Part.written, p.unit.written_ne_nil] using List.flatMap_eq_nil_iff.mp h p hp
  refine ⟨fun h => ?_, fun h => h ▸ rfl⟩
  by_cases hne : qs = []
  · subst hne
    exact hnil h
  · have hne' : ps ≠ [] := by
      rintro rfl
      exact hne (hnil h.symm)
    have hread := parts?_written hne' hps
    rw [h, parts?_written hne hqs] at hread
    exact (Option.some.inj hread).symm

/-- A scan that goes on until no part follows decides about the split. -/
theorem Scan.parts? {cs rest : List Char} {parts : List Part} (h : Scan cs parts rest)
    (hend : part? rest = none) :
    Duration.parts? cs = some parts ↔ parts ≠ [] ∧ rest = [] := by
  rw [parts?_eq_some_iff]
  constructor
  · rintro ⟨hne, _, hcs⟩
    exact ⟨hne, by simpa [h.eq_append] using hcs⟩
  · rintro ⟨hne, rfl⟩
    exact ⟨hne, h.valid, h.eq_append.trans (List.append_nil _)⟩

/-! ## Texts that are durations -/

theorem body_iff {cs : List Char} : Body cs ↔ cs = ['0'] ∨ parts? cs ≠ none := by
  constructor
  · rintro (_ | ⟨hne, hvalid⟩)
    · exact Or.inl rfl
    · rw [parts?_written hne hvalid]
      exact Or.inr nofun
  · rintro (rfl | h)
    · exact .zero
    · obtain ⟨parts, hparts⟩ := Option.ne_none_iff_exists'.mp h
      obtain ⟨hne, hvalid, rfl⟩ := parts?_eq_some_iff.mp hparts
      exact .parts hne hvalid

/-- No duration without its sign begins with one. -/
theorem Body.head {cs : List Char} (h : Body cs) {c : Char} (hc : c ∈ cs.head?) :
    c ≠ '-' ∧ c ≠ '+' := by
  have hfirst : Text.isDigit c = true ∨ c = '.' := by
    cases h with
    | zero =>
      obtain rfl := Option.some.inj hc
      exact Or.inl rfl
    | @parts parts hne hvalid =>
      obtain ⟨p, rest, rfl⟩ := List.exists_cons_of_ne_nil hne
      rw [List.flatMap_cons] at hc
      exact (hvalid p List.mem_cons_self).head hc
  constructor
  · rintro rfl
    exact absurd hfirst (by decide)
  · rintro rfl
    exact absurd hfirst (by decide)

/-- The sign is told from what follows it. -/
theorem Body.signed {sign : Option Char} {body : List Char} (h : Body body)
    (hsign : ∀ c ∈ sign, c = '+' ∨ c = '-') :
    Text.signed (sign.toList ++ body) = (decide (sign = some '-'), body) := by
  rcases sign with _ | c
  · rw [Option.toList_none, List.nil_append]
    unfold Text.signed
    split
    · exact absurd rfl (h.head rfl).1
    · exact absurd rfl (h.head rfl).2
    · rfl
  · rcases hsign c rfl with rfl | rfl
    · rfl
    · rfl

/-- The sign is what is taken off as a sign. -/
theorem form_iff {cs : List Char} : Form cs ↔ Body (Text.signed cs).2 := by
  constructor
  · rintro ⟨sign, body, rfl, hsign, hbody⟩
    rw [hbody.signed hsign]
    exact hbody
  · intro h
    unfold Text.signed at h
    split at h
    · exact ⟨some '-', _, rfl, fun c hc => Or.inr (Option.some.inj hc).symm, h⟩
    · exact ⟨some '+', _, rfl, fun c hc => Or.inl (Option.some.inj hc).symm, h⟩
    · exact ⟨none, cs, rfl, nofun, h⟩

theorem grammar_iff {s : String} : Grammar s ↔
    Body (Text.signed (Text.trimBoth Text.isBlank s.toList)).2 := by
  unfold Grammar
  simp only [Text.trimmed_iff, exists_eq_left, form_iff]

/-- Parts that were added up are not malformed. -/
theorem ofSum_ne_malformed (negative : Bool) (micros : Binary64) :
    ofSum negative micros ≠ .error .malformed := by
  unfold ofSum
  split
  · exact nofun
  · split <;> exact nofun

/-- **A text is malformed exactly when it is outside the grammar.** -/
theorem parse_eq_malformed_iff {s : String} : parse s = .error .malformed ↔ ¬ Grammar s := by
  rw [grammar_iff, body_iff]
  unfold parse
  dsimp only
  generalize (Text.signed (Text.trimBoth Text.isBlank s.toList)) = signed
  split
  · rename_i hzero
    simp [hzero]
  · rename_i hzero
    rcases hparts : parts? signed.2 with _ | parts
    · simp [hzero]
    · simp [ofSum_ne_malformed]

end Duration

/-! ## Values that are durations -/

theorem parseDuration_str_eq_ok {s : String} {d : Duration} :
    parseDuration (.str s) = .ok (some d) ↔ Duration.parse s = .ok d := by
  unfold parseDuration
  dsimp only
  split <;> simp_all

/-- **Which texts are durations.** A text is refused as malformed exactly when it is outside the
grammar, and no other input error is made of it. Scanning ends on every text: of all scans one
goes on until no part follows, and if nothing is left then its parts are the split. No text has
two splits. -/
theorem parseDuration_grammar (s : String) :
    (parseDuration (.str s) = .error (.input (.malformedDuration s)) ↔ ¬ Duration.Grammar s) ∧
    (∀ cause, parseDuration (.str s) = .error (.input cause) → cause = .malformedDuration s) ∧
    (∀ cs, ∃ parts rest, Duration.Scan cs parts rest ∧ Duration.part? rest = none ∧
      (∀ parts' rest', Duration.Scan cs parts' rest' → parts' <+: parts) ∧
      (Duration.parts? cs = some parts ↔ parts ≠ [] ∧ rest = [])) ∧
    (∀ ps qs : List Duration.Part, (∀ p ∈ ps, p.Valid) → (∀ q ∈ qs, q.Valid) →
      ps.flatMap Duration.Part.written = qs.flatMap Duration.Part.written → ps = qs) := by
  refine ⟨?_, ?_, fun cs => ?_, fun ps qs hps hqs => (Duration.written_inj hps hqs).mp⟩
  · rw [← Duration.parse_eq_malformed_iff]
    unfold parseDuration
    dsimp only
    split <;> simp_all
  · intro cause h
    unfold parseDuration at h
    dsimp only at h
    split at h
    · cases h
    · exact (Error.input.inj (Except.error.inj h)).symm
    · cases h
  · obtain ⟨parts, rest, hscan, hend⟩ := Duration.exists_scan cs
    exact ⟨parts, rest, hscan, hend, fun _ _ hscan' => hscan'.isPrefix hscan hend,
      hscan.parts? hend⟩

/-- A sign, numbers with digits on one side of their point only, and units that continue one
another; and a number that no unit follows. -/
theorem parseDuration_grammar_mixed :
    Duration.Grammar "\t-1.h.5m2ms " ∧ ¬ Duration.Grammar "1h2" ∧
      parseDuration (.str "\t-1.h.5m2ms ") = .ok (some ⟨-3630002000, by decide, by decide⟩) ∧
      parseDuration (.str "1h2") = .error (.input (.malformedDuration "1h2")) := by
  have hread : Duration.parse "\t-1.h.5m2ms " = .ok ⟨-3630002000, by decide, by decide⟩ := by
    decide +kernel
  have hrefused : Duration.parse "1h2" = .error .malformed := by decide +kernel
  have hmalformed : parseDuration (.str "1h2") = .error (.input (.malformedDuration "1h2")) := by
    unfold parseDuration
    dsimp only
    rw [hrefused]
  have hok := parseDuration_str_eq_ok.mpr hread
  refine ⟨?_, (parseDuration_grammar "1h2").1.mp hmalformed, hok, hmalformed⟩
  by_contra hout
  cases hok.symm.trans ((parseDuration_grammar "\t-1.h.5m2ms ").1.mpr hout)

end AppSynthesis
