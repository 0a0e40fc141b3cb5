import StyleScaffold.Command.Options

/-!
# Lines without an option

To leave an option out of a command line, every word that gives it has to go, and with it the next
word where the option takes that for its value (`withoutOption`). What is read from the shorter line
is what is read from the line, without that option (`read_withoutOption`).

This needs that a word gives only one option, so that nothing else goes with it: letters behind one
hyphen may be several options, but not if each of them has a value.
-/

namespace StyleScaffold.Command

open Text

/-- The options that a word gives, also the one without its value. -/
def OptionWord.names (w : OptionWord) : List Text := w.given.map Prod.fst ++ w.pending.toList

/-- The words of a command line without those for an option. -/
def withoutOption (specs : List OptionSpec) (name : Text) : List Text → List Text
  | [] => []
  | word :: rest =>
    if word = "--" then word :: rest
    else if startsWith "-" word && word ≠ "-" then
      match readWord specs word with
      | none => word :: rest
      | some ⟨given, none⟩ =>
        if name ∈ OptionWord.names ⟨given, none⟩ then withoutOption specs name rest
        else word :: withoutOption specs name rest
      | some ⟨given, some pending⟩ =>
        match rest with
        | [] => [word]
        | value :: rest =>
          if name ∈ OptionWord.names ⟨given, some pending⟩ then withoutOption specs name rest
          else word :: value :: withoutOption specs name rest
    else word :: withoutOption specs name rest

/-- Every option of one letter has a value. -/
def NoLetterSwitch (specs : List OptionSpec) : Prop :=
  ∀ o ∈ specs, o.hasValue = false → ∀ spelling ∈ o.spellings, spelling.length ≠ 2

instance (specs : List OptionSpec) : Decidable (NoLetterSwitch specs) :=
  inferInstanceAs (Decidable (∀ o ∈ specs, o.hasValue = false →
    ∀ spelling ∈ o.spellings, spelling.length ≠ 2))

/-! ## Words with one option -/

variable {specs : List OptionSpec} {word : Text} {w : OptionWord}

theorem length_names_readLetters (hSpecs : NoLetterSwitch specs)
    (h : readLetters specs word = some w) : w.names.length ≤ 1 := by
  cases word with
  | nil =>
    cases h
    exact Nat.zero_le 1
  | cons c rest =>
    unfold readLetters at h
    split at h
    · cases h
    · rename_i o hFind
      have hValue : o.hasValue = true := by
        rw [← Bool.not_eq_false]
        intro hSwitch
        have hSpelling := List.find?_some hFind
        rw [List.contains_iff_mem] at hSpelling
        exact hSpecs o (List.mem_of_find?_eq_some hFind) hSwitch _ hSpelling rfl
      rw [if_pos hValue] at h
      split at h
      · cases h
        exact Nat.le_refl 1
      · cases h
        exact Nat.le_refl 1

theorem length_names_readLong (h : readLong specs word = some w) : w.names.length ≤ 1 := by
  unfold readLong at h
  split at h
  split at h
  · cases h
  · split at h
    · cases h
      exact Nat.le_refl 1
    · cases h
  · cases h
    split
    · exact Nat.le_refl 1
    · exact Nat.le_refl 1

theorem length_names_readWord (hSpecs : NoLetterSwitch specs) (h : readWord specs word = some w) :
    w.names.length ≤ 1 := by
  unfold readWord at h
  split at h
  · exact length_names_readLong h
  · exact length_names_readLetters hSpecs h

theorem eq_singleton_of_mem_names {given : List (Text × Text)} {name : Text}
    (hLength : (OptionWord.names ⟨given, none⟩).length ≤ 1)
    (hName : name ∈ OptionWord.names ⟨given, none⟩) : ∃ value, given = [(name, value)] := by
  rw [OptionWord.names, Option.toList_none, List.append_nil] at hLength hName
  obtain ⟨⟨_, value⟩, hMem, rfl⟩ := List.mem_map.1 hName
  match given, hLength, hMem with
  | [_], _, hMem => exact ⟨value, congrArg (fun o => [o]) (List.mem_singleton.1 hMem).symm⟩

theorem eq_pending_of_mem_names {given : List (Text × Text)} {name pending : Text}
    (hLength : (OptionWord.names ⟨given, some pending⟩).length ≤ 1)
    (hName : name ∈ OptionWord.names ⟨given, some pending⟩) : given = [] ∧ pending = name := by
  cases given with
  | nil => exact ⟨rfl, (List.mem_singleton.1 hName).symm⟩
  | cons o given =>
    rw [OptionWord.names, List.length_append, List.map_cons, List.length_cons] at hLength
    simp only [Option.toList_some, List.length_singleton] at hLength
    omega

/-! ## Arguments without an option -/

namespace Arguments

def without (name : Text) (a : Arguments) : Arguments :=
  { a with options := a.options.filter fun o => o.1 ≠ name }

@[simp] theorem words_without (name : Text) (a : Arguments) :
    (a.without name).words = a.words := rfl

variable {a : Arguments} {name : Text} {given : List (Text × Text)}

theorem without_withOptions :
    (a.withOptions given).without name =
      (a.without name).withOptions (given.filter fun o => o.1 ≠ name) := by
  rw [withOptions, without, List.filter_append]
  rfl

theorem without_withOptions_of_not_mem (h : name ∉ given.map Prod.fst) :
    (a.withOptions given).without name = (a.without name).withOptions given := by
  have hGiven : given.filter (fun o => o.1 ≠ name) = given := by
    rw [List.filter_eq_self]
    intro o ho
    simp only [decide_eq_true_eq]
    rintro rfl
    exact h (List.mem_map_of_mem ho)
  rw [without_withOptions, hGiven]

theorem without_withOptions_singleton (value : Text) :
    (a.withOptions [(name, value)]).without name = a.without name := by
  rw [without_withOptions, List.filter_cons_of_neg (by simp), List.filter_nil]
  rfl

theorem value?_without_of_ne {other : Text} (h : other ≠ name) :
    (a.without name).value? other = a.value? other := by
  unfold value? without
  rw [← List.filter_reverse]
  generalize a.options.reverse = options
  induction options with
  | nil => rfl
  | cons o options ih =>
    obtain ⟨key, value⟩ := o
    by_cases hKey : key = name
    · subst hKey
      rw [List.filter_cons_of_neg (by simp), ih, List.lookup_cons, beq_false_of_ne h]
    · rw [List.filter_cons_of_pos (by simpa using hKey), List.lookup_cons, List.lookup_cons, ih]

theorem value?_without_self : (a.without name).value? name = none := by
  rw [value?, List.lookup_eq_none_iff]
  intro o ho
  rw [List.mem_reverse, without, List.mem_filter, decide_eq_true_eq] at ho
  exact bne_iff_ne.2 (Ne.symm ho.2)

end Arguments

/-! ## Steps of a reading -/

/-- The word is read for options. -/
def GivesOptions (word : Text) : Prop :=
  word ≠ "--" ∧ (startsWith "-" word && word ≠ "-") = true

namespace Arguments

variable {mixed : Bool} {rest : List Text} {given : List (Text × Text)} {pending : Text}

theorem read_unknown (hWord : GivesOptions word) (h : readWord specs word = none) :
    read specs mixed (word :: rest) = none := by
  rw [read, if_neg hWord.1, if_pos hWord.2, h]

theorem read_given (hWord : GivesOptions word) (h : readWord specs word = some ⟨given, none⟩) :
    read specs mixed (word :: rest) = (read specs mixed rest).map (withOptions given) := by
  rw [read, if_neg hWord.1, if_pos hWord.2, h]

theorem read_pending_nil (hWord : GivesOptions word)
    (h : readWord specs word = some ⟨given, some pending⟩) : read specs mixed [word] = none := by
  rw [read, if_neg hWord.1, if_pos hWord.2, h]

theorem read_pending_cons (hWord : GivesOptions word)
    (h : readWord specs word = some ⟨given, some pending⟩) (value : Text) :
    read specs mixed (word :: value :: rest) =
      (read specs mixed rest).map (withOptions (given ++ [(pending, value)])) := by
  rw [read, if_neg hWord.1, if_pos hWord.2, h]

theorem read_argument (hEnd : word ≠ "--")
    (hWord : ¬ (startsWith "-" word && word ≠ "-") = true) :
    read specs mixed (word :: rest) = if mixed then (read specs mixed rest).map (withWord word)
      else some { words := word :: rest } := by
  rw [read, if_neg hEnd, if_neg hWord]

end Arguments

/-! ## Reading the shorter line -/

open Arguments in
/-- The option that is left out is missing in what is read, and nothing else is. -/
theorem read_withoutOption (hSpecs : NoLetterSwitch specs) (name : Text) (line : List Text) :
    read specs true (withoutOption specs name line) =
      (read specs true line).map (without name) := by
  fun_induction withoutOption specs name line with
  | case1 => rfl
  | case2 rest =>
    rw [Arguments.read, if_pos rfl]
    rfl
  | case3 word rest hEnd hWord hRead => rw [read_unknown ⟨hEnd, hWord⟩ hRead, Option.map_none]
  | case4 word rest hEnd hWord given hRead hName ih =>
    obtain ⟨value, rfl⟩ := eq_singleton_of_mem_names (length_names_readWord hSpecs hRead) hName
    rw [read_given ⟨hEnd, hWord⟩ hRead, ih, Option.map_map]
    exact congrArg (Option.map · _) (funext fun a => (without_withOptions_singleton value).symm)
  | case5 word rest hEnd hWord given hRead hName ih =>
    rw [OptionWord.names, Option.toList_none, List.append_nil] at hName
    rw [read_given ⟨hEnd, hWord⟩ hRead, read_given ⟨hEnd, hWord⟩ hRead, ih, Option.map_map,
      Option.map_map]
    exact congrArg (Option.map · _) (funext fun a => (without_withOptions_of_not_mem hName).symm)
  | case6 word hEnd hWord given pending hRead =>
    rw [read_pending_nil ⟨hEnd, hWord⟩ hRead, Option.map_none]
  | case7 word hEnd hWord given pending hRead value rest hName ih =>
    obtain ⟨rfl, rfl⟩ := eq_pending_of_mem_names (length_names_readWord hSpecs hRead) hName
    rw [read_pending_cons ⟨hEnd, hWord⟩ hRead, ih, Option.map_map]
    exact congrArg (Option.map · _) (funext fun a => (without_withOptions_singleton value).symm)
  | case8 word hEnd hWord given pending hRead value rest hName ih =>
    have hGiven : name ∉ (given ++ [(pending, value)]).map Prod.fst := by
      rwa [List.map_append]
    rw [read_pending_cons ⟨hEnd, hWord⟩ hRead, read_pending_cons ⟨hEnd, hWord⟩ hRead, ih,
      Option.map_map, Option.map_map]
    exact congrArg (Option.map · _) (funext fun a => (without_withOptions_of_not_mem hGiven).symm)
  | case9 word rest hEnd hWord ih =>
    rw [read_argument hEnd hWord, if_pos rfl, read_argument hEnd hWord, if_pos rfl, ih,
      Option.map_map, Option.map_map]
    rfl

end StyleScaffold.Command
