import StyleScaffold.Command.Invocation
import StyleScaffold.Proofs.Command.Options
import StyleScaffold.Proofs.OrderedMap

/-!
# Invocations without an output file

A command line that names a file for the output asks for the same as the line without that option,
except that the output goes to the file (`parse?_withoutOutput`). The words in front of the command
stay, since none of them names a file.
-/

namespace StyleScaffold.Command

open Text

namespace Task

/-- The task without a file for its output. -/
def withoutOutput : Task → Task
  | .convert source format _ overrides => .convert source format none overrides
  | .design url token tokens _ overrides => .design url token tokens none overrides
  | task => task

/-- The words behind the name of a command without those that name a file for the output. -/
def wordsWithoutOutput (name : Text) (words : List Text) : List Text :=
  match command? .empty name with
  | some (specs, _) => withoutOption (helpOption :: specs) "--output" words
  | none => words

/-! ## Commands -/

theorem optionalValue_without {α : Type} (a : Arguments) {name : Text} (h : name ≠ "--output")
    (read : Text → Option α) :
    optionalValue (a.without "--output") name read = optionalValue a name read := by
  rw [optionalValue, Arguments.value?_without_of_ne h, optionalValue]

theorem has_without (a : Arguments) {name : Text} (h : name ≠ "--output") :
    (a.without "--output").has name = a.has name := by
  rw [Arguments.has, Arguments.value?_without_of_ne h, Arguments.has]

theorem overrides?_without (a : Arguments) :
    overrides? (a.without "--output") = overrides? a := by
  rw [overrides?, optionalValue_without a (by decide), optionalValue_without a (by decide),
    overrides?]

theorem onSource?_without {a : Arguments} {task task' : Text → Task}
    (h : ∀ source, task' source = (task source).withoutOutput) :
    onSource? (a.without "--output") task' = (onSource? a task).map withoutOutput := by
  obtain ⟨options, words⟩ := a
  match words with
  | [] => rfl
  | [source] => exact congrArg some (h source)
  | source :: _ :: _ => rfl

theorem convert?_without (a : Arguments) :
    convert? (a.without "--output") = (convert? a).map withoutOutput := by
  unfold convert?
  rw [optionalValue_without a (by decide), overrides?_without, Arguments.value?_without_self]
  cases optionalValue a "--format" Format.ofName? with
  | none => rfl
  | some format =>
    cases overrides? a with
    | none => rfl
    | some overrides => exact onSource?_without fun source => rfl

theorem analyze?_without (a : Arguments) :
    analyze? (a.without "--output") = (analyze? a).map withoutOutput := by
  unfold analyze?
  rw [has_without a (by decide)]
  exact onSource?_without fun source => rfl

theorem design?_without (env : Environment) (a : Arguments) :
    design? env (a.without "--output") = (design? env a).map withoutOutput := by
  unfold design?
  rw [overrides?_without, Arguments.value?_without_self, has_without a (by decide),
    Arguments.value?_without_of_ne (by decide), Arguments.words_without]
  generalize (env.get? "FIGMA_TOKEN").filter (fun s => ! s.isEmpty) = fallback
  match a.words with
  | [] => rfl
  | [url] => cases a.value? "--token" <;> cases fallback <;> cases overrides? a <;> rfl
  | _ :: _ :: _ => rfl

theorem serve?_without (a : Arguments) :
    serve? (a.without "--output") = (serve? a).map withoutOutput := by
  unfold serve?
  rw [optionalValue_without a (by decide), Arguments.value?_without_of_ne (by decide),
    Arguments.words_without]
  split
  · cases optionalValue a "--port" Literal.integer? <;> rfl
  · rfl

theorem command?_without {env : Environment} {name : Text} {specs : List OptionSpec}
    {task? : Arguments → Option Task} (h : command? env name = some (specs, task?)) :
    NoLetterSwitch (helpOption :: specs) ∧ (∃ other?, command? .empty name = some (specs, other?)) ∧
      ∀ a : Arguments, task? (a.without "--output") = (task? a).map withoutOutput := by
  unfold command? at h
  by_cases hConvert : name = "convert"
  · rw [if_pos hConvert] at h
    cases h
    exact ⟨by decide, ⟨_, if_pos hConvert⟩, convert?_without⟩
  rw [if_neg hConvert] at h
  by_cases hAnalyze : name = "analyze"
  · rw [if_pos hAnalyze] at h
    cases h
    exact ⟨by decide, ⟨_, (if_neg hConvert).trans (if_pos hAnalyze)⟩, analyze?_without⟩
  rw [if_neg hAnalyze] at h
  by_cases hDesign : name = "figma"
  · rw [if_pos hDesign] at h
    cases h
    exact ⟨by decide, ⟨_, (if_neg hConvert).trans ((if_neg hAnalyze).trans (if_pos hDesign))⟩,
      design?_without env⟩
  rw [if_neg hDesign] at h
  by_cases hServe : name = "serve"
  · rw [if_pos hServe] at h
    cases h
    exact ⟨by decide, ⟨_, (if_neg hConvert).trans
      ((if_neg hAnalyze).trans ((if_neg hDesign).trans (if_pos hServe)))⟩, serve?_without⟩
  · rw [if_neg hServe] at h
    cases h

theorem isSome_command? (env : Environment) (name : Text) :
    (command? env name).isSome = (command? .empty name).isSome := by
  unfold command?
  repeat' split
  all_goals rfl

theorem ofCommand?_wordsWithoutOutput {env : Environment} {name : Text}
    (hName : (command? env name).isSome) (words : List Text) :
    ofCommand? env name (wordsWithoutOutput name words) =
      (ofCommand? env name words).map withoutOutput := by
  obtain ⟨⟨specs, task?⟩, hCommand⟩ := Option.isSome_iff_exists.1 hName
  obtain ⟨hSpecs, ⟨other?, hEmpty⟩, hTask⟩ := command?_without hCommand
  unfold ofCommand? wordsWithoutOutput
  rw [hCommand, hEmpty]
  simp only [Option.bind_eq_bind, Option.bind_some, read_withoutOption hSpecs]
  cases Arguments.read (helpOption :: specs) true words with
  | none => rfl
  | some a =>
    have hHelp : (a.without "--output").has "--help" = a.has "--help" := has_without a (by decide)
    simp only [Option.map_some, Option.bind_some, hHelp, hTask]
    cases a.has "--help" <;> rfl

end Task

namespace Invocation

/-- The words in front of a command, and its name with the words behind it. -/
def cutAtCommand : List Text → List Text × List Text
  | [] => ([], [])
  | word :: rest =>
    if word = "--" then ([word], rest)
    else if startsWith "-" word && word ≠ "-" then
      (word :: (cutAtCommand rest).1, (cutAtCommand rest).2)
    else ([], word :: rest)

/-- The command line without the words that name a file for the output. -/
def withoutOutput (line : List Text) : List Text :=
  match cutAtCommand line with
  | (_, []) => line
  | (front, name :: words) => front ++ name :: Task.wordsWithoutOutput name words

/-! ## The words in front of the command -/

/-- No option has a value. -/
def OnlySwitches (specs : List OptionSpec) : Prop := ∀ o ∈ specs, o.hasValue = false

instance (specs : List OptionSpec) : Decidable (OnlySwitches specs) :=
  inferInstanceAs (Decidable (∀ o ∈ specs, o.hasValue = false))

variable {specs : List OptionSpec}

theorem OnlySwitches.of_findOption (hSpecs : OnlySwitches specs) {spelling : Text} {o : OptionSpec}
    (h : findOption specs spelling = some o) : ¬ o.hasValue = true := by
  rw [hSpecs o (List.mem_of_find?_eq_some h)]
  exact Bool.false_ne_true

theorem OnlySwitches.pending_readLetters (hSpecs : OnlySwitches specs) {word : Text}
    {w : OptionWord} (h : readLetters specs word = some w) : w.pending = none := by
  induction word generalizing w with
  | nil =>
    cases h
    rfl
  | cons c rest ih =>
    unfold readLetters at h
    split at h
    · cases h
    · rename_i o hFind
      rw [if_neg (hSpecs.of_findOption hFind), Option.map_eq_some_iff] at h
      obtain ⟨more, hRest, rfl⟩ := h
      exact ih (w := more) hRest

theorem OnlySwitches.pending_readWord (hSpecs : OnlySwitches specs) {word : Text} {w : OptionWord}
    (h : readWord specs word = some w) : w.pending = none := by
  unfold readWord at h
  split at h
  · unfold readLong at h
    split at h
    split at h
    · cases h
    · rename_i o value hFind hHalves
      rw [if_neg (hSpecs.of_findOption hFind)] at h
      cases h
    · rename_i o hFind hHalves
      rw [if_neg (hSpecs.of_findOption hFind)] at h
      cases h
      rfl
  · exact hSpecs.pending_readLetters h

theorem OnlySwitches.words_of_read (hSpecs : OnlySwitches specs) {line : List Text} {a : Arguments}
    (h : Arguments.read specs false line = some a) : a.words = (cutAtCommand line).2 := by
  fun_induction cutAtCommand line generalizing a with
  | case1 =>
    cases h
    rfl
  | case2 rest =>
    rw [Arguments.read, if_pos rfl] at h
    cases h
    rfl
  | case3 word rest hEnd hWord ih =>
    cases hRead : readWord specs word with
    | none =>
      rw [Arguments.read_unknown ⟨hEnd, hWord⟩ hRead] at h
      cases h
    | some w =>
      obtain ⟨given, pending⟩ := w
      obtain rfl : pending = none := hSpecs.pending_readWord hRead
      rw [Arguments.read_given ⟨hEnd, hWord⟩ hRead, Option.map_eq_some_iff] at h
      obtain ⟨b, hRest, rfl⟩ := h
      exact ih (a := b) hRest
  | case4 word rest hEnd hWord =>
    rw [Arguments.read_argument hEnd hWord] at h
    cases h
    rfl

/-- The words behind the name of the command may be others. -/
theorem OnlySwitches.read_append (hSpecs : OnlySwitches specs) {line front words : List Text}
    {name : Text} (hLine : cutAtCommand line = (front, name :: words)) (words' : List Text) :
    Arguments.read specs false (front ++ name :: words') =
      (Arguments.read specs false line).map fun a => { a with words := name :: words' } := by
  fun_induction cutAtCommand line generalizing front with
  | case1 => cases hLine
  | case2 rest =>
    cases hLine
    rw [List.singleton_append, Arguments.read, if_pos rfl, Arguments.read, if_pos rfl]
    rfl
  | case3 word rest hEnd hWord ih =>
    obtain ⟨rfl, hCut⟩ := Prod.mk.inj hLine
    have hRest := ih (Prod.ext rfl hCut)
    cases hRead : readWord specs word with
    | none =>
      rw [List.cons_append, Arguments.read_unknown ⟨hEnd, hWord⟩ hRead,
        Arguments.read_unknown ⟨hEnd, hWord⟩ hRead, Option.map_none]
    | some w =>
      obtain ⟨given, pending⟩ := w
      obtain rfl : pending = none := hSpecs.pending_readWord hRead
      rw [List.cons_append, Arguments.read_given ⟨hEnd, hWord⟩ hRead,
        Arguments.read_given ⟨hEnd, hWord⟩ hRead, hRest, Option.map_map, Option.map_map]
      rfl
  | case4 word rest hEnd hWord =>
    cases hLine
    rw [List.nil_append, Arguments.read_argument hEnd hWord, Arguments.read_argument hEnd hWord]
    rfl

/-! ## Parsing -/

theorem onlySwitches_leadingOptions : OnlySwitches leadingOptions := by decide

theorem withoutOutput_immediateTask? {a : Arguments} {task : Task}
    (h : immediateTask? a = some task) : task.withoutOutput = task := by
  have hTasks : ∀ entry ∈ immediateTasks, entry.2.withoutOutput = entry.2 := by
    simp [immediateTasks, Task.withoutOutput]
  obtain ⟨o, -, hTask⟩ := List.exists_of_findSome?_eq_some h
  exact hTasks _ (mem_of_lookup hTask)

section Steps

variable {env : Environment} {line words : List Text} {name : Text} {a : Arguments} {task : Task}

theorem parse?_immediate (hRead : Arguments.read leadingOptions false line = some a)
    (hTask : immediateTask? a = some task) : parse? env line = some ⟨false, task⟩ := by
  unfold parse?
  simp only [hRead, Option.bind_eq_bind, Option.bind_some, hTask]
  rfl

theorem parse?_nothing (hRead : Arguments.read leadingOptions false line = some a)
    (hTask : immediateTask? a = none) (hWords : a.words = []) : parse? env line = none := by
  unfold parse?
  simp only [hRead, Option.bind_eq_bind, Option.bind_some, hTask, hWords]

theorem parse?_command (hRead : Arguments.read leadingOptions false line = some a)
    (hTask : immediateTask? a = none) (hWords : a.words = name :: words)
    (hName : (Task.command? env name).isSome) :
    parse? env line =
      (Task.ofCommand? env name words).map fun task => ⟨a.has "--verbose", task⟩ := by
  unfold parse?
  simp only [hRead, Option.bind_eq_bind, Option.bind_some, hTask, hWords, if_pos hName]
  cases Task.ofCommand? env name words <;> rfl

theorem parse?_unknown (hRead : Arguments.read leadingOptions false line = some a)
    (hTask : immediateTask? a = none) (hWords : a.words = name :: words)
    (hName : ¬ (Task.command? env name).isSome) :
    parse? env line = ((Arguments.read leadingOptions false (name :: words)).bind
      immediateTask?).map fun task => ⟨false, task⟩ := by
  unfold parse?
  simp only [hRead, Option.bind_eq_bind, Option.bind_some, hTask, hWords, if_neg hName]
  cases Arguments.read leadingOptions false (name :: words) with
  | none => rfl
  | some b =>
    rw [Option.bind_some, Option.bind_some]
    cases immediateTask? b <;> rfl

end Steps

/-- The command and the words behind it without those that name a file for the output. -/
def commandWithoutOutput : List Text → List Text
  | [] => []
  | name :: words => name :: Task.wordsWithoutOutput name words

theorem read_withoutOutput (line : List Text) :
    Arguments.read leadingOptions false (withoutOutput line) =
      (Arguments.read leadingOptions false line).map fun a =>
        { a with words := commandWithoutOutput a.words } := by
  have hWords : ∀ a, Arguments.read leadingOptions false line = some a →
      a.words = (cutAtCommand line).2 := fun _ => onlySwitches_leadingOptions.words_of_read
  unfold withoutOutput
  split
  · rename_i front hLine
    cases hRead : Arguments.read leadingOptions false line with
    | none => rfl
    | some a =>
      obtain ⟨options, words⟩ := a
      obtain rfl : words = [] := (hWords _ hRead).trans (congrArg Prod.snd hLine)
      rfl
  · rename_i front name words hLine
    rw [onlySwitches_leadingOptions.read_append hLine]
    refine Option.map_congr fun a hRead => ?_
    rw [hWords a hRead, hLine, commandWithoutOutput]

theorem wordsWithoutOutput_of_unknown {env : Environment} {name : Text}
    (h : ¬ (Task.command? env name).isSome) (words : List Text) :
    Task.wordsWithoutOutput name words = words := by
  rw [Task.isSome_command?, Option.not_isSome_iff_eq_none] at h
  rw [Task.wordsWithoutOutput, h]

/-- The line without the option for the output asks for the same without an output file. -/
theorem parse?_withoutOutput (env : Environment) (line : List Text) :
    parse? env (withoutOutput line) =
      (parse? env line).map fun i => { i with task := i.task.withoutOutput } := by
  have hOther := read_withoutOutput line
  cases hRead : Arguments.read leadingOptions false line with
  | none =>
    rw [hRead, Option.map_none] at hOther
    unfold parse?
    rw [hOther, hRead]
    rfl
  | some a =>
    rw [hRead, Option.map_some] at hOther
    cases hTask : immediateTask? a with
    | some task =>
      rw [parse?_immediate hOther hTask, parse?_immediate hRead hTask, Option.map_some,
        withoutOutput_immediateTask? hTask]
    | none =>
      cases hWords : a.words with
      | nil =>
        rw [hWords] at hOther
        rw [parse?_nothing hOther hTask rfl, parse?_nothing hRead hTask hWords, Option.map_none]
      | cons name words =>
        rw [hWords] at hOther
        by_cases hName : (Task.command? env name).isSome
        · rw [parse?_command hOther hTask rfl hName, parse?_command hRead hTask hWords hName,
            Task.ofCommand?_wordsWithoutOutput hName, Option.map_map, Option.map_map]
          rfl
        · rw [parse?_unknown hOther hTask rfl hName, parse?_unknown hRead hTask hWords hName,
            wordsWithoutOutput_of_unknown hName, Option.map_map]
          refine Option.map_congr fun task hUnknown => ?_
          obtain ⟨b, -, hUnknown⟩ := Option.bind_eq_some_iff.1 hUnknown
          rw [Function.comp, withoutOutput_immediateTask? hUnknown]

end Invocation

end StyleScaffold.Command
