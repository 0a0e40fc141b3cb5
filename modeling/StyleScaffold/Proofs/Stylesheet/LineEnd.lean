import StyleScaffold.Proofs.Css.SolidLines
import StyleScaffold.Proofs.Stylesheet
import StyleScaffold.Proofs.Text.PairedBreaks

/-!
# Line ends of a stylesheet

A program that reads a file sees every line end as one character, and a service that is sent a text
sees what was sent. The lines of a stylesheet are the same for both, so its blocks are too. Its name
need not be: it is taken from a comment only if that is short, and a line end in the comment counts
as the characters that it has.

* `not_componentOfStylesheet_pairedBreaks`: a comment over two lines names the component for one of
  the readers and not for the other.
* `conversions_pairedBreaks`: this is the only difference.
-/

namespace StyleScaffold

open Text Css

namespace Css

/-! ## Lines -/

theorem pairedBreaks_of_oneLine {s : Text} (h : OneLine s) : pairedBreaks s = s := by
  induction s with
  | nil => rfl
  | cons c s ih =>
    obtain ⟨hFirst, hRest⟩ := List.forall_mem_cons.1 h
    have hc : c ≠ '\n' := by
      rintro rfl
      exact absurd hFirst (by decide)
    rw [pairedBreaks_cons hc, ih hRest]

theorem solidLines_pairedBreaks (s : Text) : solidLines (pairedBreaks s) = solidLines s := by
  induction s using lineInduction with
  | line s h => rw [pairedBreaks_of_oneLine h]
  | lineBreak a c b ha hc ih =>
    rw [pairedBreaks_append, pairedBreaks_of_oneLine ha, solidLines_append_break hc, ← ih]
    by_cases hFeed : c = '\n'
    · -- the line between the two characters is empty
      subst hFeed
      have hEmpty := solidLines_append_break isLineBreak_lineFeed [] (pairedBreaks b)
      rw [pairedBreaks_lineFeed, solidLines_append_break (by decide), ← List.nil_append (_ :: _),
        hEmpty]
      rfl
    · rw [pairedBreaks_cons hFeed, solidLines_append_break hc]

theorem blocks_pairedBreaks (sheet : Text) : blocks (pairedBreaks sheet) = blocks sheet := by
  rw [blocks, solidLines_pairedBreaks, blocks]

/-! ## Names -/

theorem plainComment?_pairedBreaks (s : Text) :
    plainComment? (pairedBreaks s) = (plainComment? s).map pairedBreaks := by
  have hOpening : NoPair "/*" := by decide
  have hClosing : NoPair "*/" := by decide
  have hStar : TreatsBreaks (· ≠ (.char '*')) true := ⟨rfl, rfl⟩
  unfold plainComment?
  rw [strip?_pairedBreaks hOpening]
  cases strip? "/*" s with
  | none => rfl
  | some rest =>
    simp only [Option.map_some, Option.bind_eq_bind, Option.bind_some]
    rw [run?_pairedBreaks hStar]
    cases run? (· ≠ (.char '*')) rest with
    | none => rfl
    | some parts =>
      simp only [Option.map_some, Option.bind_some, Prod.map_fst, Prod.map_snd,
        startsWith_pairedBreaks hClosing, trim_pairedBreaks]
      split <;> rfl

theorem firstMatch_plainComment?_pairedBreaks (sheet : Text) :
    firstMatch plainComment? (pairedBreaks sheet) =
      (firstMatch plainComment? sheet).map pairedBreaks :=
  firstMatch_pairedBreaks plainComment?_pairedBreaks (fun _ => ⟨rfl, rfl⟩) sheet

theorem identifierIn?_pairedBreaks (s : Text) :
    identifierIn? (pairedBreaks s) = identifierIn? s := by
  rw [identifierIn?, filter_pairedBreaks ⟨rfl, rfl⟩, identifierIn?]

theorem classSelector?_pairedBreaks (s : Text) :
    classSelector? (pairedBreaks s) = (classSelector? s).map id := by
  cases s with
  | nil => rfl
  | cons c s =>
    by_cases hDot : c = '.'
    · subst hDot
      rw [pairedBreaks_cons (by decide)]
      cases s with
      | nil => rfl
      | cons d s =>
        by_cases hd : d = '\n'
        · subst hd
          rfl
        · rw [pairedBreaks_cons hd, classSelector?, classSelector?,
            takeWhile_pairedBreaks ⟨rfl, rfl⟩, Option.map_id, id]
    · have hNone : ∀ {e : CodePoint} (t : Text), e ≠ '.' → classSelector? (e :: t) = none := by
        intro e t he
        unfold classSelector?
        split
        · rename_i hEq
          exact absurd (List.cons.inj hEq).1 he
        · rfl
      rw [hNone s hDot]
      by_cases hc : c = '\n'
      · subst hc
        exact hNone _ (by decide)
      · rw [pairedBreaks_cons hc]
        exact hNone _ hDot

theorem nameFromSelector?_pairedBreaks (sheet : Text) :
    nameFromSelector? (pairedBreaks sheet) = nameFromSelector? sheet := by
  rw [nameFromSelector?, firstMatch_pairedBreaks classSelector?_pairedBreaks fun _ => ⟨rfl, rfl⟩,
    Option.map_id, id, nameFromSelector?]

/-- The name of the component is that of a comment which is too long if each of its line ends counts
as two characters, and without the comment it would have another name. -/
def LosesName (default sheet : Text) : Prop :=
  ∃ content name, firstMatch plainComment? sheet = some content ∧
    nameFromComment? sheet = some name ∧
    maxNameComment ≤ content.length + content.count (.char '\n') ∧
    name ≠ (nameFromSelector? sheet).getD default

theorem nameFromComment?_eq_some {sheet name : Text} :
    nameFromComment? sheet = some name ↔
      ∃ content, firstMatch plainComment? sheet = some content ∧
        holds layoutNote content = false ∧ content.length < maxNameComment ∧
          identifierIn? content = some name := by
  simp only [nameFromComment?, Option.bind_eq_bind, Option.bind_eq_some_iff,
    Option.ite_none_left_eq_some, Bool.or_eq_true, decide_eq_true_eq, not_or, Nat.not_le,
    Bool.not_eq_true, and_assoc]

theorem nameFromComment?_pairedBreaks {sheet name : Text} :
    nameFromComment? (pairedBreaks sheet) = some name ↔ nameFromComment? sheet = some name ∧
      ∀ content, firstMatch plainComment? sheet = some content →
        content.length + content.count (.char '\n') < maxNameComment := by
  have hNote : ∀ content, holds layoutNote (pairedBreaks content) = holds layoutNote content :=
    holds_pairedBreaks (by decide) (by decide)
  simp only [nameFromComment?_eq_some, firstMatch_plainComment?_pairedBreaks,
    Option.map_eq_some_iff]
  constructor
  · rintro ⟨_, ⟨content, hMatch, rfl⟩, hPlain, hLength, hName⟩
    rw [length_pairedBreaks] at hLength
    rw [hNote] at hPlain
    rw [identifierIn?_pairedBreaks] at hName
    refine ⟨⟨content, hMatch, hPlain, by omega, hName⟩, fun other hOther => ?_⟩
    rw [hMatch, Option.some.injEq] at hOther
    rwa [← hOther]
  · rintro ⟨⟨content, hMatch, hPlain, -, hName⟩, hShort⟩
    refine ⟨_, ⟨content, hMatch, rfl⟩, ?_, ?_, ?_⟩
    · rw [hNote, hPlain]
    · rw [length_pairedBreaks]
      exact hShort content hMatch
    · rw [identifierIn?_pairedBreaks, hName]

theorem componentName_pairedBreaks_iff (default sheet : Text) :
    componentName default (pairedBreaks sheet) = componentName default sheet ↔
      ¬ LosesName default sheet := by
  have hSame : ∀ t, nameFromComment? t = none →
      componentName default t = (nameFromSelector? t).getD default := by
    intro t ht
    rw [componentName, ht]
  cases hName : nameFromComment? sheet with
  | none =>
    have hPaired : nameFromComment? (pairedBreaks sheet) = none := by
      rw [Option.eq_none_iff_forall_ne_some]
      intro name h
      rw [nameFromComment?_pairedBreaks, hName] at h
      cases h.1
    refine iff_of_true ?_ ?_
    · rw [hSame _ hPaired, hSame _ hName, nameFromSelector?_pairedBreaks]
    · rintro ⟨content, name, -, h, -⟩
      rw [hName] at h
      cases h
  | some name =>
    obtain ⟨content, hMatch, -⟩ := nameFromComment?_eq_some.1 hName
    have hGiven : componentName default sheet = name := by rw [componentName, hName]
    by_cases hShort : content.length + content.count (.char '\n') < maxNameComment
    · have hPaired : nameFromComment? (pairedBreaks sheet) = some name := by
        refine nameFromComment?_pairedBreaks.2 ⟨hName, fun other hOther => ?_⟩
        rw [hMatch, Option.some.injEq] at hOther
        rwa [← hOther]
      refine iff_of_true ?_ ?_
      · rw [hGiven, componentName, hPaired]
      · rintro ⟨other, _, hOther, -, hLong, -⟩
        rw [hMatch, Option.some.injEq] at hOther
        rw [← hOther] at hLong
        omega
    · have hPaired : nameFromComment? (pairedBreaks sheet) = none := by
        rw [Option.eq_none_iff_forall_ne_some]
        intro other h
        exact hShort ((nameFromComment?_pairedBreaks.1 h).2 content hMatch)
      rw [hSame _ hPaired, hGiven, nameFromSelector?_pairedBreaks]
      constructor
      · rintro hEq ⟨_, other, -, hOther, -, hne⟩
        rw [hName, Option.some.injEq] at hOther
        exact hne (hOther ▸ hEq.symm)
      · exact fun h => Classical.byContradiction fun hne =>
          h ⟨content, name, hMatch, hName, by omega, Ne.symm hne⟩

/-- What takes the place of a name that is lost. -/
theorem componentName_pairedBreaks_of_losesName {default sheet : Text}
    (h : LosesName default sheet) :
    componentName default (pairedBreaks sheet) = (nameFromSelector? sheet).getD default := by
  obtain ⟨content, name, hMatch, hName, hLong, -⟩ := h
  have hNone : nameFromComment? (pairedBreaks sheet) = none := by
    rw [Option.eq_none_iff_forall_ne_some]
    intro other hOther
    have hShort := (nameFromComment?_pairedBreaks.1 hOther).2 content hMatch
    omega
  rw [componentName, hNone, nameFromSelector?_pairedBreaks]

end Css

/-! ## Conversions -/

theorem requiredBlocks_pairedBreaks (sheet : Text) :
    requiredBlocks (pairedBreaks sheet) = requiredBlocks sheet := by
  rw [requiredBlocks, allBlank_pairedBreaks, blocks_pairedBreaks, requiredBlocks]

theorem componentOfStylesheet_pairedBreaks (settings : ConversionSettings) (sheet : Text) :
    componentOfStylesheet settings (pairedBreaks sheet) =
      (componentOfStylesheet settings sheet).map fun c =>
        { c with name := componentName settings.defaultName (pairedBreaks sheet) } := by
  rw [componentOfStylesheet, componentOfStylesheet, requiredBlocks_pairedBreaks]
  cases requiredBlocks sheet with
  | error fault => rfl
  | ok bs =>
    simp only [bind, Except.bind]
    cases convertBlock settings.policies (bs.headD []) with
    | error fault => rfl
    | ok block => rfl

/-- A comment of forty-nine characters on two lines, and a rule for the class `b`. -/
def banner : Text :=
  "/*" ++ copies 24 (.char 'a') ++ "\n" ++ copies 24 (.char 'a') ++ "*/\n.b\x7bcolor:red\x7d"

theorem not_componentOfStylesheet_pairedBreaks :
    ¬ ∀ (settings : ConversionSettings) (sheet : Text), (.char '\r') ∉ sheet →
      componentOfStylesheet settings (pairedBreaks sheet) = componentOfStylesheet settings sheet ∧
        convertStylesheet settings.policies (pairedBreaks sheet) =
          convertStylesheet settings.policies sheet := by
  intro h
  have hSame := (h {} banner (by decide)).1
  have hNames := congrArg (fun outcome => outcome.toOption.map Component.name) hSame
  exact absurd hNames (by decide +kernel)

/-- A stylesheet and its form with paired line breaks, which are one text to a reader that takes
both for a line end: they have the same blocks, and they are refused for the same reason. The
component is the same up to its name, and its name is the same unless the paired breaks make the
comment that gives it too long. -/
theorem conversions_pairedBreaks (settings : ConversionSettings) (sheet : Text) :
    ((.char '\r') ∉ sheet → universalBreaks (pairedBreaks sheet) = sheet) ∧
      convertStylesheet settings.policies (pairedBreaks sheet) =
        convertStylesheet settings.policies sheet ∧
      (LosesName settings.defaultName sheet →
        componentOfStylesheet settings (pairedBreaks sheet) =
          (componentOfStylesheet settings sheet).map fun c =>
            { c with name := (nameFromSelector? sheet).getD settings.defaultName }) ∧
      (componentOfStylesheet settings (pairedBreaks sheet) ≠ componentOfStylesheet settings sheet ↔
        LosesName settings.defaultName sheet ∧
          ∃ c, componentOfStylesheet settings sheet = .ok c) := by
  refine ⟨universalBreaks_pairedBreaks, ?_, ?_, ?_⟩
  · rw [convertStylesheet, requiredBlocks_pairedBreaks, convertStylesheet]
  · intro hLoses
    rw [componentOfStylesheet_pairedBreaks, componentName_pairedBreaks_of_losesName hLoses]
  · rw [componentOfStylesheet_pairedBreaks]
    cases hComponent : componentOfStylesheet settings sheet with
    | error fault =>
      refine iff_of_false (fun hne => hne rfl) ?_
      rintro ⟨-, c, hc⟩
      cases hc
    | ok c =>
      obtain ⟨-, -, -, -, hName, -⟩ := componentOfStylesheet_eq_ok.1 hComponent
      have hSame : Except.ok (ε := StylesheetFault)
            { c with name := componentName settings.defaultName (pairedBreaks sheet) } = .ok c ↔
          componentName settings.defaultName (pairedBreaks sheet) =
            componentName settings.defaultName sheet := by
        rw [← hName, Except.ok.injEq]
        constructor
        · intro h
          exact congrArg Component.name h
        · intro h
          rw [h]
      rw [Except.map, ne_eq, hSame, componentName_pairedBreaks_iff, Classical.not_not]
      exact ⟨fun hLoses => ⟨hLoses, c, rfl⟩, And.left⟩

end StyleScaffold
