import StyleScaffold.Proofs.Css.Declaration

/-!
# Reading written declarations again

Written declarations are read as what they were, as long as no comment stands among them. A
comment can stand there although comments are taken out before reading: taking one out may bring
a slash and a star together.

* `declarations_ruleText`: declarations in a rule with any selector are read back, if the rule
  holds no complete comment.
* `slashes_declarations_le`: what is read from a block holds no more slashes than are left
  when its comments are taken out. A comment takes slashes with it, so where there is one among
  the written declarations, some of them are lost.
* `declarations_ruleText_iff`: both directions, for the declarations read from any block.
-/

namespace StyleScaffold.Css

open Text

/-! ## A written declaration -/

theorem declarationLine_eq (indent : Text) (d : Text × Text) :
    declarationLine indent d =
      indent ++ (d.1 ++ .char ':' :: .char ' ' :: (d.2 ++ [.char ';'])) := by
  simp [declarationLine, ofString]

theorem declaration?_declarationLine {u : Text} (hu : allBlank u = true) {d : Text × Text}
    (hd : IsDeclaration d) : declaration? (declarationLine u d) = some d := by
  have hLeft : (':' : CodePoint) ∉ u ++ d.1 := by
    rw [List.mem_append, not_or]
    exact ⟨not_mem_of_allBlank hu (by decide), hd.property_noColon⟩
  have hProperty : trim (u ++ d.1) = d.1 := by
    rw [trim_append_left hu, hd.property_trimmed.trim_eq]
  have hWritten : Trimmed (d.2 ++ [.char ';']) := by
    refine ⟨?_, ?_⟩
    · intro c hc
      obtain ⟨first, rest, hValue⟩ := List.exists_cons_of_ne_nil hd.value_ne_nil
      apply hd.value_trimmed.head
      simpa [hValue] using hc
    · intro c hc
      obtain rfl : .char ';' = c := by simpa using hc
      decide
  have hValue : dropSemicolon (trim (.char ' ' :: (d.2 ++ [.char ';']))) = d.2 := by
    rw [← List.singleton_append, trim_append_left (by decide), hWritten.trim_eq,
      dropSemicolon_append, trimRight_eq_self hd.value_trimmed.last]
  rw [declarationLine_eq, ← List.append_assoc]
  exact declaration?_of_sides hLeft hProperty hValue hd.property_ne_nil hd.value_ne_nil

theorem oneLine_declarationLine {d : Text × Text} (hd : IsDeclaration d) :
    OneLine (declarationLine [] d) := by
  have hColon : OneLine [.char ':', .char ' '] := by decide
  have hSemicolon : OneLine [.char ';'] := by decide
  rw [declarationLine_eq]
  exact hd.property_oneLine.append (hColon.append (hd.value_oneLine.append hSemicolon))

theorem allBlank_declarationLine (indent : Text) (d : Text × Text) :
    allBlank (declarationLine indent d) = false := by
  rw [declarationLine_eq, allBlank_append, allBlank_append, allBlank_cons]
  simp [show isBlank (.char ':') = false from by decide]

theorem noBrace_declarationLine {u : Text} (hu : allBlank u = true) {d : Text × Text}
    (hd : IsDeclaration d) : NoBrace (declarationLine u d) := by
  have hColon : NoBrace [.char ':', .char ' '] := by decide
  have hSemicolon : NoBrace [.char ';'] := by decide
  rw [declarationLine_eq]
  exact (noBrace_of_allBlank hu).append
    (hd.property_noBrace.append (hColon.append (hd.value_noBrace.append hSemicolon)))

theorem noBrace_join_declarationLine {indent : Text} (hIndent : allBlank indent = true)
    {entries : List (Text × Text)} (hds : ∀ d ∈ entries, IsDeclaration d) :
    NoBrace (join ['\n'] (entries.map (declarationLine indent))) := by
  intro c hc
  rcases mem_join hc with hBreak | ⟨line, hLine, hc⟩
  · rw [List.mem_singleton.1 hBreak]
    decide
  · obtain ⟨d, hd, rfl⟩ := List.mem_map.1 hLine
    exact noBrace_declarationLine hIndent (hds d hd) c hc

theorem noBrace_declarationsText {indent : Text} (hIndent : allBlank indent = true)
    {ds : Declarations} (hds : ∀ d ∈ ds.entries, IsDeclaration d) :
    NoBrace (declarationsText indent ds) := noBrace_join_declarationLine hIndent hds

/-- The line on which a declaration is written is read as that declaration. -/
theorem lineDeclarations_declarationLine {u : Text} (hu : allBlank u = true) {d : Text × Text}
    (hd : IsDeclaration d) : lineDeclarations (declarationLine u d) = [d] := by
  rw [lineDeclarations, fragmentsOfLine_of_noBrace (noBrace_declarationLine hu hd)]
  simp [declaration?_declarationLine hu hd]

/-- The indent may hold line breaks: what is in front of its last one stands on blank lines. -/
theorem solidLines_declarationLine {indent : Text} (hIndent : allBlank indent = true)
    {d : Text × Text} (hd : IsDeclaration d) :
    ∃ u, allBlank u = true ∧ solidLines (declarationLine indent d) = [declarationLine u d] := by
  obtain ⟨u, hu, hLines⟩ := solidLines_blank_append hIndent (oneLine_declarationLine hd)
    (allBlank_declarationLine [] d)
  refine ⟨u, hu, ?_⟩
  rw [declarationLine_eq, declarationLine_eq u]
  rwa [declarationLine_eq] at hLines

theorem flatMap_lineDeclarations_join {indent : Text} (hIndent : allBlank indent = true)
    {entries : List (Text × Text)} (hds : ∀ d ∈ entries, IsDeclaration d) :
    (solidLines (join ['\n'] (entries.map (declarationLine indent)))).flatMap lineDeclarations =
      entries := by
  rw [solidLines_join]
  induction entries with
  | nil => rfl
  | cons d rest ih =>
    obtain ⟨u, hu, hLines⟩ := solidLines_declarationLine hIndent (hds d List.mem_cons_self)
    rw [List.map_cons, List.flatMap_cons, List.flatMap_append, hLines, List.flatMap_singleton,
      lineDeclarations_declarationLine hu (hds d List.mem_cons_self),
      ih fun d hd => hds d (List.mem_cons_of_mem _ hd)]
    rfl

theorem flatMap_lineDeclarations_declarationsText {indent : Text}
    (hIndent : allBlank indent = true) {ds : Declarations}
    (hds : ∀ d ∈ ds.entries, IsDeclaration d) :
    (solidLines (declarationsText indent ds)).flatMap lineDeclarations = ds.entries :=
  flatMap_lineDeclarations_join hIndent hds

/-! ## A written rule -/

theorem ruleText_eq (selector body : Text) :
    ruleText selector body =
      selector ++ [.char ' ', .char '\x7b'] ++
        .char '\n' :: (body ++ .char '\n' :: [.char '\x7d']) := by
  simp [ruleText, ofString]

theorem solidLines_ruleText {selector : Text} (h : OneLine selector) (body : Text) :
    solidLines (ruleText selector body) =
      (selector ++ [.char ' ', .char '\x7b']) :: (solidLines body ++ [[.char '\x7d']]) := by
  have hFirst : OneLine (selector ++ [.char ' ', .char '\x7b']) :=
    h.append (by decide)
  have hSolid : allBlank (selector ++ [.char ' ', .char '\x7b']) = false := by
    rw [allBlank_append, show allBlank [.char ' ', .char '\x7b'] = false from by decide,
      Bool.and_false]
  have hLast : solidLines [.char '\x7d'] = [[.char '\x7d']] :=
    solidLines_of_solid (by decide) (by decide)
  rw [ruleText_eq, solidLines_append_break isLineBreak_lineFeed,
    solidLines_append_break isLineBreak_lineFeed,
    solidLines_of_solid hFirst hSolid, hLast, List.singleton_append]

/-- A text without comments is read as the lines between its first and its last solid line, if
these hold a selector with its brace and a closing brace. -/
theorem declarations_eq_of_solidLines {s selector : Text} {body : List Text}
    (hBrace : NoBrace selector) (hComment : hasComment s = false)
    (hLines : solidLines s =
      (selector ++ [.char ' ', .char '\x7b']) :: (body ++ [[.char '\x7d']])) :
    declarations s = .ofList (body.flatMap lineDeclarations) := by
  have hBlank : NoBrace (selector ++ [.char ' ']) := hBrace.append (by decide)
  have hFirst : lineDeclarations (selector ++ [.char ' ', .char '\x7b']) = [] := by
    simpa [filterMap_cut_nil] using lineDeclarations_opening hBlank noBrace_nil
  have hLast : lineDeclarations [.char '\x7d'] = [] := rfl
  rw [declarations_eq, withoutComments_eq_self hComment, hLines, List.flatMap_cons,
    List.flatMap_append, List.flatMap_singleton, hFirst, hLast, List.append_nil, List.nil_append]

theorem declarations_of_solidLines {s selector : Text} {body : List Text} {ds : Declarations}
    (hBrace : NoBrace selector)
    (hBody : body.flatMap lineDeclarations = ds.entries) (hComment : hasComment s = false)
    (hLines : solidLines s =
      (selector ++ [.char ' ', .char '\x7b']) :: (body ++ [[.char '\x7d']])) :
    declarations s = ds := by
  rw [declarations_eq_of_solidLines hBrace hComment hLines, hBody, OrderedMap.ofList_entries]

/-- Declarations in a rule are read back, unless the rule holds a comment. -/
theorem declarations_ruleText {selector indent : Text} {ds : Declarations}
    (hSelector : OneLine selector) (hBrace : NoBrace selector)
    (hIndent : allBlank indent = true) (hds : ∀ d ∈ ds.entries, IsDeclaration d)
    (hComment : hasComment (ruleText selector (declarationsText indent ds)) = false) :
    declarations (ruleText selector (declarationsText indent ds)) = ds :=
  declarations_of_solidLines hBrace (flatMap_lineDeclarations_declarationsText hIndent hds) hComment
    (solidLines_ruleText hSelector _)

/-! ## Slashes -/

/-- How many slashes stand in the declarations. -/
def slashes (ds : List (Text × Text)) : Nat :=
  (ds.flatMap fun d => d.1 ++ d.2).count (.char '/')

theorem slashes_append (ds es : List (Text × Text)) :
    slashes (ds ++ es) = slashes ds + slashes es := by
  simp [slashes]

theorem slashes_lineDeclarations_le (line : Text) :
    slashes (lineDeclarations line) ≤ line.count (.char '/') := by
  refine Nat.le_trans ?_ ((flatten_fragmentsOfLine_sublist line).count_le _)
  rw [lineDeclarations]
  induction fragmentsOfLine line with
  | nil => simp [slashes]
  | cons fragment rest ih =>
    rw [List.flatten_cons, List.count_append]
    cases hd : declaration? fragment with
    | none =>
      rw [List.filterMap_cons_none hd]
      omega
    | some d =>
      have hFragment := (declaration?_sublist hd).count_le (.char '/')
      rw [List.count_append] at hFragment
      rw [List.filterMap_cons_some hd]
      simp only [slashes, List.flatMap_cons, List.count_append] at ih ⊢
      omega

/-- Nothing that is read stands in a comment. -/
theorem slashes_declarations_le (block : Text) :
    slashes (declarations block).entries ≤ (withoutComments block).count (.char '/') := by
  rw [declarations_eq]
  refine Nat.le_trans (OrderedMap.count_ofList_le _ _ _) ?_
  rw [← count_flatten_solidLines (c := .char '/') (by decide) (withoutComments block)]
  change slashes _ ≤ _
  induction solidLines (withoutComments block) with
  | nil => simp [slashes]
  | cons line rest ih =>
    have hLine := slashes_lineDeclarations_le line
    rw [List.flatMap_cons, slashes_append, List.flatten_cons, List.count_append]
    omega

theorem count_declarationsText {indent : Text} (hIndent : allBlank indent = true)
    (ds : Declarations) :
    (declarationsText indent ds).count (.char '/') = slashes ds.entries := by
  have hBreak : (.char '/' : CodePoint) ∉ [.char '\n'] := by decide
  rw [declarationsText, count_join hBreak]
  induction ds.entries with
  | nil => rfl
  | cons d rest ih =>
    rw [List.map_cons, List.flatten_cons, List.count_append, ih, declarationLine_eq]
    simp only [List.count_append, List.count_cons, count_of_allBlank hIndent
      (show isBlank (.char '/') = false from by decide), slashes, List.flatMap_cons]
    simp

theorem count_ruleText (body : Text) :
    (ruleText ".a" body).count (.char '/') = body.count (.char '/') := by
  simp [ruleText, ofString]

/-! ## The round trip -/

theorem hasComment_ruleText {selector : Text} (h : ('/' : CodePoint) ∉ selector) (body : Text) :
    hasComment (ruleText selector body) = hasComment body := by
  have hEq : ruleText selector body =
      (selector ++ [.char ' ', .char '\x7b', .char '\n']) ++
        (body ++ [.char '\n', .char '\x7d']) := by
    simp [ruleText, ofString]
  rw [hEq, hasComment_append_left (by simp [h]), hasComment_append_right (by decide)]

/-- Declarations read from a block, written in a rule, one on a line behind an indent of blanks,
are read from the rule again exactly when no complete comment stands in what was written. -/
theorem declarations_ruleText_iff (block indent : Text) (hIndent : allBlank indent = true) :
    declarations (ruleText ".a" (declarationsText indent (declarations block))) =
        declarations block ↔
      hasComment (declarationsText indent (declarations block)) = false := by
  have hOutside : hasComment (ruleText ".a" (declarationsText indent (declarations block))) =
      hasComment (declarationsText indent (declarations block)) :=
    hasComment_ruleText (by decide) _
  constructor
  · intro hEq
    rw [Bool.eq_false_iff]
    intro hComment
    -- the comment takes slashes with it, and all slashes are in the declarations
    have hLost := count_withoutComments_lt (hOutside.trans hComment)
    have hRead := slashes_declarations_le
      (ruleText ".a" (declarationsText indent (declarations block)))
    rw [count_ruleText, count_declarationsText hIndent] at hLost
    rw [hEq] at hRead
    omega
  · intro hComment
    exact declarations_ruleText (by decide) (by decide) hIndent
      (fun _ hd => isDeclaration_of_mem_declarations hd) (hOutside.trans hComment)

/-- Taking `/**/` out of this block leaves a value that is a comment itself. -/
theorem declarations_ruleText_iff_comment :
    allBlank "\t " = true ∧
      (declarations (ruleText ".a" (declarationsText "\t " (declarations "a: //**/* b */;"))) =
          declarations "a: //**/* b */;" ↔
        hasComment (declarationsText "\t " (declarations "a: //**/* b */;")) = false) :=
  ⟨by decide, declarations_ruleText_iff "a: //**/* b */;" "\t " (by decide)⟩

end StyleScaffold.Css
