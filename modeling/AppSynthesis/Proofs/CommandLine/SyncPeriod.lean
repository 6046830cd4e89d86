/-
AppSynthesis.Proofs.CommandLine.SyncPeriod — what the default sync period of a command line can
lead to.

* `CommandLine.GivesPeriod` — a text is given as the default sync period of the command.
* `CommandLine.ofArguments_fault` — a command line that ends neither in a request nor in a
  message about its use gives a period out of range.
* `CommandLine.ofArguments_build` — with any text as its period a command line is a request if
  the text is a duration, and otherwise ends as the text is refused.
* `parseDuration_outcome` — what values, texts and command lines lead to.

Only texts that are no durations are mistakes of the user here. Those that are too long for a
duration are in the grammar, and what they end in is told to nobody.
-/
import AppSynthesis.CommandLine.Outcome
import AppSynthesis.Proofs.CommandLine.Reading
import AppSynthesis.Proofs.Duration.Range

namespace AppSynthesis.CommandLine

/-! ## Periods out of range -/

/-- A text is given as the default sync period. -/
def GivesPeriod (arguments : List String) (text : String) : Prop :=
  ∃ words, Taken.operand (buildCommand :: words) ∈ (programGrammar.read arguments).taken ∧
    Taken.flag .defaultSyncPeriod (some text) ∈ (buildGrammar.read words).taken

theorem syncPeriodOf_fault {word : String} {e : Error} (h : syncPeriodOf word = .error (.fault e)) :
    e = .fault .outOfRange ∧ parseDuration (.str word) = .error e := by
  unfold syncPeriodOf at h
  split at h
  · cases h
  · cases h
  · cases h
  · rename_i e' hno heq
    obtain rfl := Stop.fault.inj (Except.error.inj h)
    rcases parseDuration_cases (.str word) with ⟨hnull, -⟩ | ⟨-, -, cause, hinput⟩ |
      ⟨_, _, -, -, hzero⟩ | ⟨_, _, _, -, -, ⟨d, hok⟩ | hrange⟩
    · cases hnull
    · rw [heq] at hinput
      exact absurd (Except.error.inj hinput) (hno cause)
    · cases heq.symm.trans hzero
    · cases heq.symm.trans hok
    · rw [heq] at hrange
      exact ⟨Except.error.inj hrange, heq⟩

/-- Of all that the command takes only its sync period can be at fault. -/
theorem Draft.take_fault {d : Draft} {t : Taken} {e : Error} (ht : t.Declared buildGrammar)
    (h : d.take t = .error (.fault e)) :
    e = .fault .outOfRange ∧ ∃ text, t = .flag .defaultSyncPeriod (some text) ∧
      parseDuration (.str text) = .error e := by
  cases ht with
  | operand => cases h
  | @plain f hf hplain =>
    simp only [buildGrammar, List.mem_cons, List.not_mem_nil, or_false] at hf
    rcases hf with rfl | rfl | rfl | rfl | rfl <;> first | cases h | cases hplain
  | @valued f value hf htakes =>
    simp only [buildGrammar, List.mem_cons, List.not_mem_nil, or_false] at hf
    rcases hf with rfl | rfl | rfl | rfl | rfl
    case inr.inr.inr.inl =>
      obtain ⟨rfl, hvalue⟩ := syncPeriodOf_fault (map_eq_error.mp h)
      exact ⟨rfl, value, rfl, hvalue⟩
    all_goals cases h

theorem Draft.takeAll_fault {e : Error} : ∀ {taken : List Taken} {d : Draft},
    (∀ t ∈ taken, t.Declared buildGrammar) → d.takeAll taken = .error (.fault e) →
      e = .fault .outOfRange ∧ ∃ text, .flag .defaultSyncPeriod (some text) ∈ taken ∧
        parseDuration (.str text) = .error e
  | [], _, _, h => by cases h
  | t :: rest, d, hdeclared, h => by
    obtain ⟨ht, hrest⟩ := List.forall_mem_cons.mp hdeclared
    rcases bind_eq_error.mp h with hfirst | ⟨next, _, h⟩
    · obtain ⟨rfl, text, rfl, hvalue⟩ := Draft.take_fault ht hfirst
      exact ⟨rfl, text, List.mem_cons_self, hvalue⟩
    · split at h
      · cases h
      · obtain ⟨rfl, text, hmem, hvalue⟩ := takeAll_fault hrest h
        exact ⟨rfl, text, List.mem_cons_of_mem t hmem, hvalue⟩

theorem buildOfWords_fault {words : List String} {e : Error}
    (h : buildOfWords words = .error (.fault e)) :
    e = .fault .outOfRange ∧
      ∃ text, .flag .defaultSyncPeriod (some text) ∈ (buildGrammar.read words).taken ∧
        parseDuration (.str text) = .error e := by
  rcases bind_eq_error.mp h with h | ⟨draft, _, h⟩
  · exact Draft.takeAll_fault (buildGrammar.read_declared words) h
  · split at h
    · cases h
    · split at h
      · cases h
      · split at h <;> cases h
      · cases h

/-- The program itself is never at fault, only the command that it takes. -/
theorem programTake_fault {t : Taken} {e : Error} (h : programTake t = .error (.fault e)) :
    ∃ words, t = .operand (buildCommand :: words) ∧ buildOfWords words = .error (.fault e) := by
  unfold programTake at h
  split at h
  · dsimp only at h
    split at h
    · cases h
    · split at h <;> cases h
  · cases h
  · split at h
    · cases h
    · rename_i command words hbuild
      obtain rfl : command = buildCommand := Decidable.of_not_not hbuild
      exact ⟨words, rfl, map_eq_error.mp h⟩

theorem programTakeAll_fault {e : Error} : ∀ {taken : List Taken},
    programTakeAll taken = .error (.fault e) → ∃ words, .operand (buildCommand :: words) ∈ taken ∧
      buildOfWords words = .error (.fault e)
  | [], h => by cases h
  | t :: rest, h => by
    rcases bind_eq_error.mp h with hfirst | ⟨answer, _, h⟩
    · obtain ⟨words, rfl, hwords⟩ := programTake_fault hfirst
      exact ⟨words, List.mem_cons_self, hwords⟩
    · split at h
      · cases h
      · obtain ⟨words, hmem, hwords⟩ := programTakeAll_fault h
        exact ⟨words, List.mem_cons_of_mem t hmem, hwords⟩

/-- **Only a period out of range leads neither to a request nor to a mistake.** -/
theorem ofArguments_fault {arguments : List String} {e : Error}
    (h : Request.ofArguments arguments = .error (.fault e)) :
    e = .fault .outOfRange ∧ ∃ text, GivesPeriod arguments text ∧
      parseDuration (.str text) = .error e := by
  rcases bind_eq_error.mp h with h | ⟨answer, _, h⟩
  · obtain ⟨words, hmem, hwords⟩ := programTakeAll_fault h
    obtain ⟨rfl, text, htext, hvalue⟩ := buildOfWords_fault hwords
    exact ⟨rfl, text, ⟨words, hmem, htext⟩, hvalue⟩
  · split at h
    · split at h <;> cases h
    · cases h
    · split at h <;> cases h

/-! ## Any text as a period -/

/-- A word that cannot be an option. -/
def Operand (word : String) : Prop := word.toList.head? ≠ some '-'

instance (word : String) : Decidable (Operand word) :=
  inferInstanceAs (Decidable (word.toList.head? ≠ some '-'))

theorem classify_operand (g : Grammar) {word : String} (h : Operand word) :
    g.classify word = .ok .operand := if_pos (Or.inl h)

theorem Operand.ne_separator {word : String} (h : Operand word) : word ≠ "--" := by
  rintro rfl
  exact h rfl

theorem classifyAll_cons (g : Grammar) {word : String} {rest : List String} (h : word ≠ "--") :
    g.classifyAll (word :: rest) = do
      let first ← g.classify word
      return (word, first) :: (← g.classifyAll rest) := by
  rw [Grammar.classifyAll]
  exact h

section

variable (text : String)

/-- The word that gives a text as the period. -/
def periodWord : String := "--default-sync-period=" ++ text

theorem periodWord_toList : (periodWord text).toList =
    '-' :: '-' :: ("default-sync-period".toList ++ '=' :: text.toList) := by
  unfold periodWord
  rw [String.toList_append]
  rfl

theorem splitAtEquals_periodWord : splitAtEquals (periodWord text).toList =
    ("--default-sync-period".toList, some ⟨true, text.toList⟩) := by
  rw [periodWord_toList]
  rfl

/-- It is no option as it stands, because of its equals sign. -/
theorem find?_periodWord {g : Grammar} (h : ∀ e ∈ g.spellings, '=' ∉ e.1.toList) :
    g.find? (periodWord text) = none := by
  refine Option.map_eq_none_iff.mpr (List.find?_eq_none.mpr fun e he heq => h e he ?_)
  rw [of_decide_eq_true heq, periodWord_toList]
  simp

/-- The command has it as an option with its value. -/
theorem classify_periodWord_build : buildGrammar.classify (periodWord text) =
    .ok (.known .defaultSyncPeriod "--default-sync-period" (some ⟨true, text.toList⟩)) := by
  have hoption : buildGrammar.find? (String.ofList "--default-sync-period".toList) =
      some .defaultSyncPeriod := by decide
  have hnone := find?_periodWord text (g := buildGrammar) (by decide)
  have hdash : ¬((periodWord text).toList.head? ≠ some '-' ∨ (periodWord text).toList = ['-']) := by
    simp [periodWord_toList]
  unfold Grammar.classify
  dsimp only
  rw [if_neg hdash, hnone]
  dsimp only
  rw [splitAtEquals_periodWord]
  dsimp only
  rw [hoption]
  rfl

/-- The program does not know it, and leaves it to the command. -/
theorem classify_periodWord_program :
    ∃ word, programGrammar.classify (periodWord text) = .ok word := by
  have hoption : programGrammar.find? (String.ofList "--default-sync-period".toList) = none := by
    decide
  have hnone := find?_periodWord text (g := programGrammar) (by decide)
  have hdash : ¬((periodWord text).toList.head? ≠ some '-' ∨ (periodWord text).toList = ['-']) := by
    simp [periodWord_toList]
  have hmatching : programGrammar.matching (periodWord text) = [] := by
    unfold Grammar.matching
    rw [periodWord_toList]
    rfl
  unfold Grammar.classify
  dsimp only
  rw [if_neg hdash, hnone]
  dsimp only
  rw [splitAtEquals_periodWord]
  dsimp only
  rw [hoption, hmatching]
  dsimp only
  split
  · exact ⟨_, rfl⟩
  · exact ⟨_, rfl⟩

theorem periodWord_ne_separator : periodWord text ≠ "--" := by
  intro h
  have hlist := congrArg String.toList h
  rw [periodWord_toList] at hlist
  cases hlist

variable {install package : String}

/-- The words after the command, with a text as the period. -/
def buildWords (install package text : String) : List String :=
  [install, "-p", package, periodWord text]

/-- The program leaves everything from the command on to the command. -/
theorem read_program (hinstall : Operand install) (hpackage : Operand package) :
    programGrammar.read (buildCommand :: buildWords install package text) =
      { taken := [.operand (buildCommand :: buildWords install package text)] } := by
  obtain ⟨word, hword⟩ := classify_periodWord_program text
  have hcommand : programGrammar.classify buildCommand = .ok .operand := by decide
  have hflag : programGrammar.classify "-p" = .ok .unknown := by decide
  have hclassified : programGrammar.classifyAll (buildCommand :: buildWords install package text) =
      .ok [(buildCommand, .operand), (install, .operand), ("-p", .unknown), (package, .operand),
        (periodWord text, word)] := by
    unfold buildWords
    rw [classifyAll_cons _ (by decide), classifyAll_cons _ hinstall.ne_separator,
      classifyAll_cons _ (by decide), classifyAll_cons _ hpackage.ne_separator,
      classifyAll_cons _ (periodWord_ne_separator text), hcommand, classify_operand _ hinstall,
      hflag, classify_operand _ hpackage, hword]
    rfl
  unfold Grammar.read
  rw [hclassified]
  rfl

/-- The command takes the install, the package and the period. -/
theorem read_build (hinstall : Operand install) (hpackage : Operand package) :
    buildGrammar.read (buildWords install package text) =
      { taken := [.operand [install], .flag .package (some package),
          .flag .defaultSyncPeriod (some text)] } := by
  have hflag : buildGrammar.classify "-p" = .ok (.known .package "-p" none) := by decide
  have hclassified : buildGrammar.classifyAll (buildWords install package text) =
      .ok [(install, .operand), ("-p", .known .package "-p" none), (package, .operand),
        (periodWord text, .known .defaultSyncPeriod "--default-sync-period"
          (some ⟨true, text.toList⟩))] := by
    unfold buildWords
    rw [classifyAll_cons _ hinstall.ne_separator,
      classifyAll_cons _ (by decide), classifyAll_cons _ hpackage.ne_separator,
      classifyAll_cons _ (periodWord_ne_separator text), classify_operand _ hinstall,
      hflag, classify_operand _ hpackage, classify_periodWord_build]
    rfl
  unfold Grammar.read
  rw [hclassified]
  simp [Grammar.readFrom, Grammar.cluster, buildGrammar, Flag.package, Flag.defaultSyncPeriod,
    Reading.take, Reading.takeAll]

/-- The draft of what the command takes. -/
theorem takeAll_build : ({} : Draft).takeAll [.operand [install], .flag .package (some package),
    .flag .defaultSyncPeriod (some text)] = (syncPeriodOf text).map fun period => some {
      install := some (Path.normal install)
      request := {
        install := ""
        packages := [Path.normal package]
        defaultSyncPeriod := period } } := by
  have hperiod (d : Draft) : d.take (.flag .defaultSyncPeriod (some text)) =
      (syncPeriodOf text).map fun period =>
        some { d with request := { d.request with defaultSyncPeriod := period } } := rfl
  simp only [Draft.takeAll, hperiod]
  rcases syncPeriodOf text with e | period
  · rfl
  · rfl

/-- The program takes the command as the command ends. -/
theorem programTake_error {words : List String} {e : Stop} (h : buildOfWords words = .error e) :
    programTake (.operand (buildCommand :: words)) = .error e := by
  show (buildOfWords words).map _ = _
  rw [h]
  rfl

theorem programTake_ok {words unused : List String} {r : BuildRequest}
    (h : buildOfWords words = .ok (some (r, unused))) :
    programTake (.operand (buildCommand :: words)) = .ok (some (.build r, unused)) := by
  show (buildOfWords words).map _ = _
  rw [h]
  rfl

/-- **Any text as the period** makes a request or stops as the text does. -/
theorem ofArguments_build (hinstall : Operand install) (hpackage : Operand package) :
    Request.ofArguments (buildCommand :: buildWords install package text) =
      (syncPeriodOf text).map fun period => .build {
        install := Path.normal install
        packages := [Path.normal package]
        defaultSyncPeriod := period } := by
  have hbuild : buildOfWords (buildWords install package text) =
      (syncPeriodOf text).map fun period => some ({
        install := Path.normal install
        packages := [Path.normal package]
        defaultSyncPeriod := period }, []) := by
    unfold buildOfWords
    rw [read_build text hinstall hpackage]
    dsimp only
    rw [takeAll_build]
    rcases syncPeriodOf text with e | period
    · rfl
    · rfl
  unfold Request.ofArguments
  rw [read_program text hinstall hpackage]
  generalize syncPeriodOf text = outcome at hbuild ⊢
  rcases outcome with e | period
  · simp only [programTakeAll, programTake_error hbuild]
    rfl
  · simp only [programTakeAll, programTake_ok hbuild]
    rfl

/-- The period of such a command line is its text. -/
theorem givesPeriod_build (hinstall : Operand install) (hpackage : Operand package) :
    GivesPeriod (buildCommand :: buildWords install package text) text := by
  refine ⟨buildWords install package text, ?_, ?_⟩
  · rw [read_program text hinstall hpackage]
    exact List.mem_singleton_self _
  · rw [read_build text hinstall hpackage]
    simp

variable {text} {folder : Folder}

theorem ofArguments_ok {d : Duration} (hinstall : Operand install) (hpackage : Operand package)
    (h : parseDuration (.str text) = .ok (some d)) :
    Request.ofArguments (buildCommand :: buildWords install package text) = .ok (.build {
      install := Path.normal install
      packages := [Path.normal package]
      defaultSyncPeriod := d }) := by
  have hperiod : syncPeriodOf text = .ok d := by
    unfold syncPeriodOf
    rw [h]
  rw [ofArguments_build text hinstall hpackage, hperiod]
  rfl

theorem run_refused {cause : InputError} (hinstall : Operand install) (hpackage : Operand package)
    (h : parseDuration (.str text) = .error (.input cause)) :
    run (buildCommand :: buildWords install package text) folder = .ok {
      exitCode := 2
      messages := usageMessage buildProgram (.refused .defaultSyncPeriod cause.message)
      folder } := by
  have hperiod : syncPeriodOf text = .error (periodRefusal cause.message) := by
    unfold syncPeriodOf
    rw [h]
  unfold run
  rw [ofArguments_build text hinstall hpackage, hperiod]
  rfl

theorem ofArguments_outOfRange (hinstall : Operand install) (hpackage : Operand package)
    (h : parseDuration (.str text) = .error (.fault .outOfRange)) :
    Request.ofArguments (buildCommand :: buildWords install package text) =
      .error (.fault (.fault .outOfRange)) := by
  have hperiod : syncPeriodOf text = .error (.fault (.fault .outOfRange)) := by
    unfold syncPeriodOf
    rw [h]
  rw [ofArguments_build text hinstall hpackage, hperiod]
  rfl

theorem run_outOfRange (hinstall : Operand install) (hpackage : Operand package)
    (h : parseDuration (.str text) = .error (.fault .outOfRange)) :
    run (buildCommand :: buildWords install package text) folder = .error (.fault .outOfRange) := by
  unfold run
  rw [ofArguments_outOfRange hinstall hpackage h]

end

end AppSynthesis.CommandLine

namespace AppSynthesis

open CommandLine Duration

/-! ## Outcomes -/

/-- More hours than a duration has. -/
def beyond : List Part := [.ofNat 99999999999 .hour]

theorem spelled_beyond : Spelled "99999999999h" none beyond := by
  refine ⟨Text.trimmed_iff.mpr (by decide +kernel), nofun, List.cons_ne_nil _ _, ?_⟩
  intro p hp
  obtain rfl := List.mem_singleton.mp hp
  exact Part.valid_ofNat

theorem worth_beyond : ((greatest + 1 : Int) : ℚ) + tolerance beyond ≤ worth beyond := by
  rw [greatest_eq]
  norm_num [worth, tolerance, beyond, Part.worth_ofNat, TimeUnit.worth]

/-- **How durations fail.** A value is no duration, a duration, an input error, or else a text of
the grammar that is out of range; a text that is spelled with parts is so if they come to more
than the longest duration, and is not if they come to less, up to their tolerance. A command line
ends in a request or in a mistake unless it gives such a text as the period, and with any text as
its period it ends in a request, in exit code two, or nowhere, as the text does. -/
theorem parseDuration_outcome (v : Value) (text : String) (arguments : List String) :
    ((v = .null ∧ parseDuration v = .ok none) ∨
      (v ≠ .null ∧ (∀ s, v = .str s → ¬ Grammar s) ∧
        ∃ cause, parseDuration v = .error (.input cause)) ∨
      (∃ s sign, v = .str s ∧ SpelledZero s sign ∧ parseDuration v = .ok (some Duration.zero)) ∨
      ∃ s sign parts, v = .str s ∧ Spelled s sign parts ∧
        ((∃ d, parseDuration v = .ok (some d)) ∨ parseDuration v = .error (.fault .outOfRange))) ∧
    (∀ sign parts, Spelled text sign parts →
      (worth parts + tolerance parts ≤ ((-least : Int) : ℚ) →
        ∃ d, parseDuration (.str text) = .ok (some d) ∧
          |(d.micros : ℚ) - (if sign = some '-' then -worth parts else worth parts)| ≤
            tolerance parts + 1 / 2) ∧
      (((greatest + 1 : Int) : ℚ) + tolerance parts ≤ worth parts →
        parseDuration (.str text) = .error (.fault .outOfRange))) ∧
    (∀ e, Request.ofArguments arguments = .error (.fault e) →
      e = .fault .outOfRange ∧
        ∃ period, GivesPeriod arguments period ∧ parseDuration (.str period) = .error e) ∧
    ∀ install package folder, Operand install → Operand package →
      GivesPeriod (buildCommand :: buildWords install package text) text ∧
      (∀ d, parseDuration (.str text) = .ok (some d) →
        Request.ofArguments (buildCommand :: buildWords install package text) = .ok (.build {
          install := Path.normal install
          packages := [Path.normal package]
          defaultSyncPeriod := d })) ∧
      (∀ cause, parseDuration (.str text) = .error (.input cause) →
        run (buildCommand :: buildWords install package text) folder = .ok {
          exitCode := 2
          messages := usageMessage buildProgram (.refused .defaultSyncPeriod cause.message)
          folder }) ∧
      (parseDuration (.str text) = .error (.fault .outOfRange) →
        run (buildCommand :: buildWords install package text) folder =
          .error (.fault .outOfRange)) := by
  refine ⟨parseDuration_cases v, fun sign parts h => ⟨fun hle => ?_, fun hge => ?_⟩,
    fun e => ofArguments_fault, fun install package folder hinstall hpackage =>
      ⟨givesPeriod_build text hinstall hpackage, fun d => ofArguments_ok hinstall hpackage,
        fun cause => run_refused hinstall hpackage, run_outOfRange hinstall hpackage⟩⟩
  · obtain ⟨d, hd, hnear⟩ := h.parse_of_le hle
    exact ⟨d, parseDuration_str_eq_ok.mpr hd, hnear⟩
  · exact parseDuration_fault_iff.mpr ⟨rfl, text, rfl, h.parse_of_ge hge⟩

/-- An hour and a half before, a text that is refused, and a text of the grammar with too many
hours. -/
theorem parseDuration_outcome_hours :
    (∃ parts, Spelled "-1.5h" (some '-') parts ∧
      worth parts + tolerance parts ≤ ((-least : Int) : ℚ)) ∧
    Spelled "99999999999h" none beyond ∧
    ((greatest + 1 : Int) : ℚ) + tolerance beyond ≤ worth beyond ∧
    (∃ d, parseDuration (.str "-1.5h") = .ok (some d) ∧
      |(d.micros : ℚ) + 5400000000| ≤ 2 ^ 18 + 1 / 2 ∧
      Request.ofArguments (buildCommand :: buildWords "install.yaml" "packages.yaml" "-1.5h") =
        .ok (.build {
          install := Path.normal "install.yaml"
          packages := [Path.normal "packages.yaml"]
          defaultSyncPeriod := d })) ∧
    (∀ folder, run (buildCommand :: buildWords "install.yaml" "packages.yaml" "1x") folder = .ok {
        exitCode := 2
        messages := usageMessage buildProgram
          (.refused .defaultSyncPeriod (InputError.malformedDuration "1x").message)
        folder }) ∧
    parseDuration (.str "99999999999h") = .error (.fault .outOfRange) ∧
    (∀ folder,
      run (buildCommand :: buildWords "install.yaml" "packages.yaml" "99999999999h") folder =
        .error (.fault .outOfRange)) ∧
    ∃ text, GivesPeriod (buildCommand :: buildWords "install.yaml" "packages.yaml" "99999999999h")
        text ∧ parseDuration (.str text) = .error (.fault .outOfRange) := by
  let arguments := buildCommand :: buildWords "install.yaml" "packages.yaml" "99999999999h"
  have houtcome (text : String) := parseDuration_outcome (.str text) text arguments
  have hbefore : Spelled "-1.5h" (some '-') [⟨['1'], some ['5'], .hour⟩] := by
    refine ⟨Text.trimmed_iff.mpr (by decide +kernel), fun c hc => Or.inr ?_, by decide, ?_⟩
    · exact (Option.some.inj hc).symm
    · intro p hp
      obtain rfl := List.mem_singleton.mp hp
      refine ⟨List.forall_mem_singleton.mpr (by decide), fun digits hdigits => ?_,
        Or.inl (List.cons_ne_nil _ _)⟩
      obtain rfl := Option.some.inj hdigits
      exact List.forall_mem_singleton.mpr (by decide)
  have hworth : worth [⟨['1'], some ['5'], .hour⟩] = 5400000000 := by
    have hdigits : Text.naturalOf ['1', '5'] = 15 := by decide
    norm_num [worth, Part.worth, Part.value, Part.decimals, hdigits, TimeUnit.worth]
  have htolerance : tolerance [⟨['1'], some ['5'], .hour⟩] = 2 ^ 18 := by norm_num [tolerance]
  have hle : worth [⟨['1'], some ['5'], .hour⟩] + tolerance [⟨['1'], some ['5'], .hour⟩] ≤
      ((-least : Int) : ℚ) := by
    rw [hworth, htolerance, least_eq]
    norm_num
  obtain ⟨-, hbeforeRange, -, hbuildBefore⟩ := houtcome "-1.5h"
  obtain ⟨-, -, -, hbuildRefused⟩ := houtcome "1x"
  obtain ⟨-, hbeyondRange, hfault, hbuildBeyond⟩ := houtcome "99999999999h"
  obtain ⟨d, hd, hnear⟩ := (hbeforeRange _ _ hbefore).1 hle
  rw [if_pos rfl, hworth, htolerance, sub_neg_eq_add] at hnear
  have hrefused : parseDuration (.str "1x") = .error (.input (.malformedDuration "1x")) := by
    decide +kernel
  have hrange := (hbeyondRange _ _ spelled_beyond).2 worth_beyond
  have hinstall : Operand "install.yaml" := by decide
  have hpackage : Operand "packages.yaml" := by decide
  refine ⟨⟨_, hbefore, hle⟩, spelled_beyond, worth_beyond, ⟨d, hd, hnear, ?_⟩, fun folder => ?_,
    hrange, fun folder => ?_, (hfault _ (ofArguments_outOfRange hinstall hpackage hrange)).2⟩
  · exact (hbuildBefore _ _ [] hinstall hpackage).2.1 d hd
  · exact (hbuildRefused _ _ folder hinstall hpackage).2.2.1 _ hrefused
  · exact (hbuildBeyond _ _ folder hinstall hpackage).2.2.2 hrange

/-- A text of the grammar for which there is neither a duration nor an input error, and as a period
neither a request nor a mistake. -/
theorem parseDuration_outcome_escape :
    ¬ (∀ v : Value, (∃ d, parseDuration v = .ok d) ∨
      ∃ cause, parseDuration v = .error (.input cause)) ∧
    ¬ ∀ (text : String) (folder : Folder),
      (∃ request, Request.ofArguments
        ["build", "install.yaml", "-p", "packages.yaml", "--default-sync-period=" ++ text] =
          .ok request) ∨
      ∃ outcome, run
        ["build", "install.yaml", "-p", "packages.yaml", "--default-sync-period=" ++ text] folder =
          .ok outcome ∧ outcome.exitCode = 2 := by
  have hrange : parseDuration (.str "99999999999h") = .error (.fault .outOfRange) :=
    parseDuration_fault_iff.mpr ⟨rfl, _, rfl, spelled_beyond.parse_of_ge worth_beyond⟩
  have hinstall : Operand "install.yaml" := by decide
  have hpackage : Operand "packages.yaml" := by decide
  constructor
  · intro h
    rcases h (.str "99999999999h") with ⟨d, hd⟩ | ⟨cause, hcause⟩
    · cases hrange.symm.trans hd
    · cases hrange.symm.trans hcause
  · intro h
    rcases h "99999999999h" [] with ⟨request, hrequest⟩ | ⟨outcome, houtcome, -⟩
    · cases (ofArguments_outOfRange hinstall hpackage hrange).symm.trans hrequest
    · cases (run_outOfRange hinstall hpackage hrange).symm.trans houtcome

end AppSynthesis
