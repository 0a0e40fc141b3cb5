import StyleScaffold.Proofs.Stylesheet
import StyleScaffold.Proofs.Utility.ClassText

/-!
# What a scaffold carries

The classes of a component stand in its markup and in its code, between quotes. Whoever reads them
there stops at the next quote. A quote in a class therefore ends the attribute and the argument too
early, and a stylesheet can bring one in, because a colour without a name is written into a class as
it is.

* `classAttribute?_markup`, `scriptArgument?_scriptCode`: what is read is the text of the classes up
  to its first quote.
* `not_scaffold_carries`: a component whose scaffold does not carry its classes.
* `scaffold_carries_iff`: every other scaffold carries them.
* `words_classText`: outside quotes, the text of the classes always gives them back.
-/

namespace StyleScaffold

open Text Utility

namespace Component

/-- The text behind the first `mark`, up to the next quote. -/
def quotedBehind? (mark s : Text) : Option Text := ((after? mark s).bind (halves? '"')).map Prod.fst

/-- The class attribute in markup. -/
def classAttribute? (markup : Text) : Option Text := quotedBehind? "class=\"" markup

/-- The first argument of the call that puts classes together, in the code of a component. -/
def scriptArgument? (code : Text) : Option Text := quotedBehind? "cn(\"" code

/-- Behind the mark `s` stands between quotes, and no other quote stands before it. -/
def Quotes (mark s text : Text) : Prop :=
  ∃ lead back, .char '"' ∉ lead ∧ text = lead ++ (mark ++ .char '"' :: (s ++ .char '"' :: back))

variable {mark s text : Text}

theorem Quotes.quotedBehind?_eq (h : Quotes mark s text) (hMark : .char '"' ∉ mark) :
    quotedBehind? (mark ++ [.char '"']) text = some (before '"' s) := by
  obtain ⟨lead, back, hLead, rfl⟩ := h
  obtain ⟨right, hHalves⟩ := exists_halves?_append (.char '"') s back
  rw [quotedBehind?, after?_append hLead hMark, Option.bind_some, hHalves, Option.map_some]

theorem quotes_append {front close : Text} (hMark : mark ++ [.char '"'] <:+ front)
    (hCount : front.count (.char '"') = 1) (hClose : close.head? = some (.char '"')) (s : Text) :
    Quotes mark s (front ++ (s ++ close)) := by
  obtain ⟨lead, rfl⟩ := hMark
  obtain ⟨back, rfl⟩ := List.head?_eq_some_iff.1 hClose
  refine ⟨lead, back, ?_, by simp⟩
  rw [List.count_append, List.count_append, List.count_singleton_self] at hCount
  exact List.count_eq_zero.1 (by omega)

theorem Quotes.append_left {u : Text} (h : Quotes mark s text) (hu : .char '"' ∉ u) :
    Quotes mark s (u ++ text) := by
  obtain ⟨lead, back, hLead, rfl⟩ := h
  refine ⟨u ++ lead, back, ?_, by rw [List.append_assoc]⟩
  rw [List.mem_append, not_or]
  exact ⟨hu, hLead⟩

theorem classAttribute?_markup (c : Component) :
    classAttribute? c.markup = some (before '"' c.classText) := by
  have hQuotes : Quotes "class=" c.classText c.markup := by
    rw [markup, List.append_assoc]
    exact quotes_append (by decide) (by decide) rfl _
  exact hQuotes.quotedBehind?_eq (by decide)

theorem scriptArgument?_scriptCode {c : Component} (hName : .char '"' ∉ c.name) :
    scriptArgument? c.scriptCode = some (before '"' c.classText) := by
  have hQuotes : Quotes "cn(" c.classText c.scriptCode := by
    have hProps : .char '"' ∉ c.propsContract := by
      simp only [propsContract, List.mem_append, hName, not_or]
      exact ⟨⟨⟨by decide, by decide⟩, by decide⟩, by decide⟩
    simp only [scriptCode, List.append_assoc]
    refine Quotes.append_left ?_ (by decide)
    refine Quotes.append_left ?_ hProps
    refine Quotes.append_left ?_ (by decide)
    refine Quotes.append_left ?_ hName
    refine Quotes.append_left ?_ (by decide)
    refine Quotes.append_left ?_ hName
    exact quotes_append (by decide) (by decide) rfl _
  exact hQuotes.quotedBehind?_eq (by decide)

theorem before_classText_iff (c : Component) :
    before '"' c.classText = c.classText ↔ ¬ ∃ cls ∈ c.classes, .char '"' ∈ cls := by
  have hSpace : CodePoint.char '"' ∉ [CodePoint.char ' '] := by decide
  rw [← mem_join_iff hSpace]
  constructor
  · intro h
    have hNone := not_mem_before (.char '"') c.classText
    rwa [h] at hNone
  · exact before_of_not_mem

theorem words_before_classText_iff {c : Component} (hWords : ∀ cls ∈ c.classes, IsSolidWord cls) :
    words (before '"' c.classText) = c.classes ↔ ¬ ∃ cls ∈ c.classes, .char '"' ∈ cls := by
  constructor
  · rintro h ⟨cls, hcls, hQuote⟩
    rw [← h] at hcls
    exact not_mem_before _ _ (mem_of_mem_words hcls hQuote)
  · intro h
    rw [(before_classText_iff c).2 h, classText, words_join hWords]

end Component

open Component

/-- Colours without a name are written into classes. -/
def writtenColors : ConversionSettings := { policies := { color := .arbitrary } }

/-- A stylesheet that colours the text of a class. -/
def coloredSheet (color : Text) : Text := ".a \x7b color: " ++ color ++ "; \x7d"

/-- The component of the stylesheet, for a colour without a name. -/
def colored (color : Text) : Component :=
  ⟨"a", [Pixel.bracketed "text" color], .ofList [("color", color)]⟩

theorem componentOfStylesheet_colored {color : Text} (h : color = "\"x" ∨ color = "tomato") :
    componentOfStylesheet writtenColors (coloredSheet color) = .ok (colored color) := by
  refine componentOfStylesheet_eq_ok.2
    ⟨coloredSheet color, [], ?_, eq_ok_of_toOption ?_, ?_, OrderedMap.ext ?_⟩
  all_goals
    rcases h with rfl | rfl
    all_goals decide +kernel

/-- Not every scaffold carries the classes of its component: a colour that begins with a quote ends
the attribute and the argument inside its class. -/
theorem not_scaffold_carries :
    ¬ ∀ (policies : Policies) (sheet : Text) (c : Component),
      componentOfStylesheet { policies } sheet = .ok c →
        (classAttribute? c.markup).map words = some c.classes ∧
          scriptArgument? c.scriptCode = some c.classText := by
  intro h
  obtain ⟨-, hScript⟩ := h _ _ _ (componentOfStylesheet_colored (.inl rfl))
  revert hScript
  decide +kernel

/-- The class attribute holds the classes, and so does the argument in the code, exactly when there
is no quote in any colour that goes into a class as it is written. -/
theorem scaffold_carries_iff {settings : ConversionSettings} {sheet : Text} {c : Component}
    (hDefault : .char '"' ∉ settings.defaultName)
    (h : componentOfStylesheet settings sheet = .ok c) :
    ((classAttribute? c.markup).map words = some c.classes ↔
        ∀ d ∈ c.declarations.entries, ∀ color ∈ embeddedColor? settings.policies.color d,
          .char '"' ∉ color) ∧
      (scriptArgument? c.scriptCode = some c.classText ↔
        ∀ d ∈ c.declarations.entries, ∀ color ∈ embeddedColor? settings.policies.color d,
          .char '"' ∉ color) := by
  obtain ⟨block, rest, -, hClasses, hName, hDeclarations⟩ := componentOfStylesheet_eq_ok.1 h
  obtain ⟨hWords, hQuote⟩ := classes_spec hClasses
  rw [← hDeclarations] at hQuote
  have hNone : (¬ ∃ cls ∈ c.classes, .char '"' ∈ cls) ↔
      ∀ d ∈ c.declarations.entries, ∀ color ∈ embeddedColor? settings.policies.color d,
        .char '"' ∉ color := by
    rw [hQuote]
    simp only [not_exists, not_and]
  have hPlainName : .char '"' ∉ c.name := by
    rw [hName]
    intro hMem
    rcases Css.isAsciiAlnum_or_mem_default hMem with hAlnum | hMem
    · revert hAlnum
      decide
    · exact hDefault hMem
  rw [classAttribute?_markup, scriptArgument?_scriptCode hPlainName, Option.map_some,
    Option.some.injEq, Option.some.injEq, ← hNone]
  exact ⟨words_before_classText_iff hWords, before_classText_iff c⟩

theorem scaffold_carries_iff_tomato :
    .char '"' ∉ writtenColors.defaultName ∧
      componentOfStylesheet writtenColors (coloredSheet "tomato") = .ok (colored "tomato") ∧
      (classAttribute? (colored "tomato").markup).map words = some [("text-[tomato]" : Text)] ∧
      scriptArgument? (colored "tomato").scriptCode = some "text-[tomato]" := by
  have hDefault : .char '"' ∉ writtenColors.defaultName := by decide
  have hComponent := componentOfStylesheet_colored (.inr rfl)
  have hQuiet : ∀ d ∈ (colored "tomato").declarations.entries,
      ∀ color ∈ embeddedColor? writtenColors.policies.color d, .char '"' ∉ color := by
    decide +kernel
  obtain ⟨hMarkup, hScript⟩ := scaffold_carries_iff hDefault hComponent
  exact ⟨hDefault, hComponent, hMarkup.2 hQuiet, hScript.2 hQuiet⟩

/-! ## The text of the classes -/

/-- No class is empty or holds a blank, so the classes are the words of their text, and components
with the same text have the same classes. -/
theorem words_classText {policies : Policies} {ds : Css.Declarations} {cs : List Text}
    (h : classes policies ds = .ok cs) :
    (∀ cls ∈ cs, cls ≠ [] ∧ ∀ c ∈ cls, isBlank c = false) ∧
      (∀ name, words (Component.classText ⟨name, cs, ds⟩) = cs) ∧
      ∀ policies' ds' cs', classes policies' ds' = .ok cs' →
        ∀ name name', Component.classText ⟨name', cs', ds'⟩ = Component.classText ⟨name, cs, ds⟩ →
          cs' = cs := by
  have hWords : ∀ {p ds cs}, classes p ds = .ok cs →
      ∀ name, words (Component.classText ⟨name, cs, ds⟩) = cs := by
    intro p ds cs h name
    exact words_join (classes_spec h).1
  refine ⟨(classes_spec h).1, hWords h, fun p ds' cs' h' name name' hText => ?_⟩
  calc
    cs' = words (Component.classText ⟨name', cs', ds'⟩) := (hWords h' name').symm
    _ = words (Component.classText ⟨name, cs, ds⟩) := by rw [hText]
    _ = cs := hWords h name

/-- The blanks of a colour are no blanks in its class, also the unusual ones. -/
theorem words_classText_wideBlanks :
    let ds : Css.Declarations := .ofList [("color", "\u2003rgb(1,\u00a02)"), ("gap", "8px")]
    let cs : List Text := ["text-[rgb(1,_2)]", "gap-2"]
    classes writtenColors.policies ds = .ok cs ∧
      words (Component.classText ⟨"Card", cs, ds⟩) = cs := by
  intro ds cs
  have hClasses : classes writtenColors.policies ds = .ok cs :=
    eq_ok_of_toOption (by decide +kernel)
  exact ⟨hClasses, (words_classText hClasses).2.1 "Card"⟩

end StyleScaffold
