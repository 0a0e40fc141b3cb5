import StyleScaffold.Proofs.Css.BlockDeclarations
import StyleScaffold.Proofs.Css.DeclarationRoundTrip
import StyleScaffold.Proofs.Css.MinifiedAnalysis
import StyleScaffold.Proofs.Css.RuleLayout
import StyleScaffold.Proofs.Except
import StyleScaffold.Proofs.Utility.CollapsedValue

/-!
# Minified rules

A written rule has its declarations on lines of their own. Minified, it stands on one line, with
semicolons between its declarations and none behind the last one (`minify_writtenRule`). So the rule
is read line by line and the minified rule piece by piece, yet both are one block with the same
declarations, but for the blanks in the values (`blocks_minify_writtenRule`).
-/

namespace StyleScaffold.Css

open Text

variable {s : Text} {d : Text × Text} {ds : List (Text × Text)}

/-- The declaration can be read from a line and from a piece, and no blank is in its property. -/
structure IsCompactDeclaration (d : Text × Text) : Prop extends IsDeclaration d where
  property_solid : Solid d.1
  property_noSemicolon : .char ';' ∉ d.1
  value_noSemicolon : .char ';' ∉ d.2

/-- The rule with the declarations of a list, each on a line. -/
def writtenRule (selector : Text) (ds : List (Text × Text)) : Text :=
  ruleText selector (join [.char '\n'] (ds.map (declarationLine [])))

/-! ## The text of a minified rule -/

/-- The declaration on the one line of a minified rule. -/
def minifiedDeclaration (d : Text × Text) : Text :=
  .char ' ' :: (d.1 ++ .char ':' :: .char ' ' :: collapse (.char ' ') d.2)

/-- What is in the braces of a minified rule. -/
def minifiedBody (ds : List (Text × Text)) : Text :=
  if ds = [] then [.char ' '] else join [.char ';'] (ds.map minifiedDeclaration)

/-- What is in front of the braces of a minified rule. -/
def minifiedSelector (selector : Text) : Text :=
  trimLeft (collapse (.char ' ') (selector ++ [.char ' ']))

theorem collapse_declarationLine (hd : IsCompactDeclaration d) (t : Text) :
    collapse (.char ' ') (.char '\n' :: (declarationLine [] d ++ .char '\n' :: t)) =
      minifiedDeclaration d ++ .char ';' :: collapse (.char ' ') (.char '\n' :: t) := by
  have hProperty : ∀ u, trimLeft (d.1 ++ u) = d.1 ++ u := by
    intro u
    obtain ⟨c, rest, hEq⟩ := List.exists_cons_of_ne_nil hd.property_ne_nil
    have hc : isBlank c = false := hd.property_solid c (by simp [hEq])
    rw [hEq]
    exact trimLeft_cons_of_solid hc _
  have hValue : ∀ u, trimLeft (d.2 ++ u) = d.2 ++ u := by
    intro u
    obtain ⟨c, rest, hEq⟩ := List.exists_cons_of_ne_nil hd.value_ne_nil
    have hc : isBlank c = false := hd.value_trimmed.head c (by simp [hEq])
    rw [hEq]
    exact trimLeft_cons_of_solid hc _
  have hLine : declarationLine [] d ++ .char '\n' :: t =
      d.1 ++ .char ':' :: (.char ' ' :: (d.2 ++ .char ';' :: (.char '\n' :: t))) := by
    rw [declarationLine_eq]
    simp
  calc
    collapse (.char ' ') (.char '\n' :: (declarationLine [] d ++ .char '\n' :: t)) =
        .char ' ' :: collapse (.char ' ')
          (d.1 ++ .char ':' :: (.char ' ' :: (d.2 ++ .char ';' :: (.char '\n' :: t)))) := by
      rw [collapse_cons_of_blank (by decide), hLine, hProperty]
    _ = .char ' ' :: (d.1 ++ .char ':' ::
          collapse (.char ' ') (.char ' ' :: (d.2 ++ .char ';' :: (.char '\n' :: t)))) := by
      rw [collapse_append_cons (by decide), collapse_of_solid hd.property_solid]
    _ = .char ' ' :: (d.1 ++ .char ':' :: .char ' ' ::
          (collapse (.char ' ') d.2 ++ .char ';' :: collapse (.char ' ') (.char '\n' :: t))) := by
      rw [collapse_cons_of_blank (by decide), hValue, collapse_append_cons (by decide)]
    _ = minifiedDeclaration d ++ .char ';' :: collapse (.char ' ') (.char '\n' :: t) := by
      simp [minifiedDeclaration]

theorem collapse_lines (hds : ∀ d ∈ ds, IsCompactDeclaration d) :
    collapse (.char ' ')
        (.char '\n' :: (join [.char '\n'] (ds.map (declarationLine [])) ++ [.char '\n'])) =
      ds.flatMap (fun d => minifiedDeclaration d ++ [.char ';']) ++ [.char ' '] := by
  induction ds with
  | nil => exact collapse_of_allBlank (by simp) (by decide)
  | cons d rest ih =>
    rw [List.forall_mem_cons] at hds
    by_cases hRest : rest = []
    · subst hRest
      have hBreak : collapse (.char ' ') [.char '\n'] = [.char ' '] :=
        collapse_of_allBlank (by simp) (by decide)
      have hLast := collapse_declarationLine hds.1 []
      rw [hBreak] at hLast
      simpa using hLast
    · have hMore := collapse_declarationLine hds.1
        (join [.char '\n'] (rest.map (declarationLine [])) ++ [.char '\n'])
      rw [ih hds.2] at hMore
      rw [List.map_cons, join_cons (by simpa using hRest)]
      simpa using hMore

theorem semicolon_not_mem_minifiedDeclaration (hd : IsCompactDeclaration d) :
    .char ';' ∉ minifiedDeclaration d := by
  have hValue : .char ';' ∉ collapse (.char ' ') d.2 := by
    rw [mem_collapse_iff (by decide) (by decide)]
    exact hd.value_noSemicolon
  simp [minifiedDeclaration, hd.property_noSemicolon, hValue]

theorem dropLastSemicolons_body (hds : ∀ d ∈ ds, IsCompactDeclaration d) :
    dropLastSemicolons
        (ds.flatMap (fun d => minifiedDeclaration d ++ [.char ';']) ++ [.char ' ', .char '}']) =
      minifiedBody ds ++ [.char '}'] := by
  induction ds with
  | nil => exact dropLastSemicolons_of_not_mem (by decide)
  | cons d rest ih =>
    rw [List.forall_mem_cons] at hds
    rw [List.flatMap_cons, List.append_assoc, List.append_assoc,
      dropLastSemicolons_append (semicolon_not_mem_minifiedDeclaration hds.1)]
    by_cases hRest : rest = []
    · subst hRest
      have hLast := dropLastSemicolons_closing (w := [.char ' ']) (by decide) []
      rw [dropLastSemicolons_nil] at hLast
      exact congrArg (minifiedDeclaration d ++ ·) hLast
    · have hKeep : ∀ t, trimLeft (rest.flatMap (fun d => minifiedDeclaration d ++ [.char ';']) ++
          [.char ' ', .char '}']) ≠ .char '}' :: t := by
        obtain ⟨e, more, rfl⟩ := List.exists_cons_of_ne_nil hRest
        have he := hds.2 e List.mem_cons_self
        obtain ⟨c, property, hProperty⟩ := List.exists_cons_of_ne_nil he.property_ne_nil
        have hc : c ∈ e.1 := by rw [hProperty]; exact List.mem_cons_self
        intro t hTrim
        rw [List.flatMap_cons, minifiedDeclaration, hProperty, List.append_assoc, List.append_assoc,
          List.cons_append, List.cons_append, trimLeft_cons_of_blank (by decide), List.cons_append,
          trimLeft_cons_of_solid (he.property_solid c hc), List.cons.injEq] at hTrim
        rw [hTrim.1] at hc
        exact he.property_noBrace.not_mem (by decide) hc
      rw [List.singleton_append, dropLastSemicolons_cons fun _ => hKeep, ih hds.2]
      simp only [minifiedBody, hRest, if_false, List.map_cons, reduceCtorEq]
      rw [join_cons (by simpa using hRest)]
      simp

/-- The minified rule, where the rule has no comment. -/
theorem minify_writtenRule (hSelector : NoBrace s) (hds : ∀ d ∈ ds, IsCompactDeclaration d)
    (hComment : hasComment (writtenRule s ds) = false) :
    minify (writtenRule s ds) = minifiedSelector s ++ braced (minifiedBody ds) := by
  have hSpace : NoBrace [.char ' '] := by decide
  have hLead : NoBrace (collapse (.char ' ') (s ++ [.char ' '])) :=
    forall_mem_collapse (hSpace _ List.mem_cons_self) (hSelector.append hSpace)
  have hCollapse : collapse (.char ' ') (writtenRule s ds) =
      collapse (.char ' ') (s ++ [.char ' ']) ++ .char '{' ::
        (ds.flatMap (fun d => minifiedDeclaration d ++ [.char ';']) ++ [.char ' ', .char '}']) := by
    have hRule : writtenRule s ds = s ++ [.char ' '] ++ .char '{' ::
        (.char '\n' :: (join [.char '\n'] (ds.map (declarationLine [])) ++ [.char '\n']) ++
          .char '}' :: []) := by
      rw [writtenRule, ruleText_eq]
      simp
    have hOpening : isBlank (.char '{') = false := by decide
    have hClosing : isBlank (.char '}') = false := by decide
    rw [hRule, collapse_append_cons hOpening, collapse_append_cons hClosing, collapse_lines hds,
      collapse_nil, List.append_assoc]
    rfl
  have hTrim : trim (collapse (.char ' ') (s ++ [.char ' ']) ++ .char '{' ::
      (minifiedBody ds ++ [.char '}'])) = minifiedSelector s ++ braced (minifiedBody ds) := by
    have hLast : (minifiedSelector s ++ braced (minifiedBody ds)).getLast? = some (.char '}') := by
      rw [braced, ← List.cons_append, ← List.append_assoc, List.getLast?_concat]
    rw [trim, trimLeft_append_cons (by decide)]
    apply trimRight_eq_self
    intro c hc
    obtain rfl : .char '}' = c := Option.some.inj (hLast.symm.trans hc)
    decide
  rw [minify, withoutComments_eq_self hComment, hCollapse,
    dropLastSemicolons_append_opening (hLead.not_mem (by decide)), dropLastSemicolons_body hds,
    hTrim]

/-! ## Reading the minified rule -/

theorem declaration?_minifiedDeclaration (hd : IsCompactDeclaration d) :
    declaration? (minifiedDeclaration d) = some (d.1, collapse (.char ' ') d.2) := by
  have hValue : Trimmed (collapse (.char ' ') d.2) := by
    rw [← hd.value_trimmed.trim_eq, ← trim_collapse (by decide)]
    exact trimmed_trim _
  have hSolid : collapse (.char ' ') d.2 ≠ [] := by
    rw [ne_eq, collapse_eq_nil_iff]
    exact hd.value_ne_nil
  have hSemicolon : .char ';' ∉ collapse (.char ' ') d.2 := by
    rw [mem_collapse_iff (by decide) (by decide)]
    exact hd.value_noSemicolon
  rw [minifiedDeclaration, ← List.singleton_append, declaration?_append_left (by decide)]
  exact declaration?_piece hd.property_trimmed hd.property_ne_nil hd.property_noColon hValue hSolid
    hSemicolon

theorem filterMap_minifiedDeclaration (hds : ∀ d ∈ ds, IsCompactDeclaration d) :
    (ds.map minifiedDeclaration).filterMap declaration? =
      ds.map (Prod.map id (collapse (.char ' '))) := by
  induction ds with
  | nil => rfl
  | cons d rest ih =>
    rw [List.forall_mem_cons] at hds
    rw [List.map_cons, List.filterMap_cons_some (declaration?_minifiedDeclaration hds.1), ih hds.2]
    rfl

theorem filterMap_minifiedBody (hds : ∀ d ∈ ds, IsCompactDeclaration d) :
    (cut (.char ';') (minifiedBody ds)).filterMap declaration? =
      ds.map (Prod.map id (collapse (.char ' '))) := by
  unfold minifiedBody
  split
  · rename_i hNil
    subst hNil
    rfl
  · rename_i hne
    have hPieces : ∀ piece ∈ ds.map minifiedDeclaration, .char ';' ∉ piece := by
      intro piece hPiece
      obtain ⟨d, hd, rfl⟩ := List.mem_map.1 hPiece
      exact semicolon_not_mem_minifiedDeclaration (hds d hd)
    rw [cut_join (by simpa using hne) hPieces, filterMap_minifiedDeclaration hds]

theorem hasComment_minify {t : Text} (h : hasComment t = false) : hasComment (minify t) = false := by
  rw [minify, withoutComments_eq_self h, hasComment_trim,
    isRewriting_dropLastSemicolons.hasComment_rewriting,
    (isRewriting_collapse (by decide)).hasComment_rewriting, h]

theorem forall_mem_minifiedSelector {P : CodePoint → Prop} (hSpace : P (.char ' '))
    (hs : ∀ c ∈ s, P c) : ∀ c ∈ minifiedSelector s, P c := by
  have hAll : ∀ c ∈ s ++ [.char ' '], P c :=
    List.forall_mem_append.2 ⟨hs, by simpa using hSpace⟩
  intro c hc
  exact forall_mem_collapse hSpace hAll c ((List.dropWhile_sublist isBlank).subset hc)

theorem forall_mem_minifiedBody {P : CodePoint → Prop}
    (hMarks : ∀ c ∈ [CodePoint.char ' ', .char ':', .char ';'], P c)
    (hds : ∀ d ∈ ds, (∀ c ∈ d.1, P c) ∧ ∀ c ∈ d.2, P c) : ∀ c ∈ minifiedBody ds, P c := by
  have hSpace : P (.char ' ') := hMarks _ (by simp)
  have hColon : P (.char ':') := hMarks _ (by simp)
  unfold minifiedBody
  split
  · simpa using hSpace
  · intro c hc
    rcases mem_join hc with hSemicolon | ⟨piece, hPiece, hc⟩
    · exact hMarks c (by simp [List.mem_singleton.1 hSemicolon])
    · obtain ⟨d, hd, rfl⟩ := List.mem_map.1 hPiece
      have hValue : ∀ c ∈ collapse (.char ' ') d.2, P c :=
        forall_mem_collapse hSpace (hds d hd).2
      simp only [minifiedDeclaration, List.mem_cons, List.mem_append] at hc
      rcases hc with rfl | hc | rfl | rfl | hc
      · exact hSpace
      · exact (hds d hd).1 c hc
      · exact hColon
      · exact hSpace
      · exact hValue c hc

/-! ## The rule and the minified rule -/

theorem blocks_writtenRule (hSelector : NoBrace s) (hds : ∀ d ∈ ds, IsCompactDeclaration d) :
    blocks (writtenRule s ds) = [blockText (writtenRule s ds)] := by
  have hBreak : NoBrace [CodePoint.char '\n'] := by decide
  have hIndent : allBlank [] = true := rfl
  have hLines := noBrace_join_declarationLine hIndent fun d hd => (hds d hd).toIsDeclaration
  have hBody := nested_of_noBrace (hBreak.append (hLines.append hBreak))
  have hRule : writtenRule s ds = s ++ [.char ' '] ++ braced
      (.char '\n' :: (join [.char '\n'] (ds.map (declarationLine [])) ++ [.char '\n'])) := by
    rw [writtenRule, ruleText_eq]
    simp [braced]
  rw [hRule]
  exact blocks_of_isOneBlock (isOneBlock_rule (hSelector.append (by decide)) hBody)

theorem declarations_writtenRule (hLine : OneLine s) (hSelector : NoBrace s)
    (hds : ∀ d ∈ ds, IsCompactDeclaration d) (hComment : hasComment (writtenRule s ds) = false) :
    declarations (writtenRule s ds) = .ofList ds := by
  have hIndent : allBlank [] = true := rfl
  rw [declarations_eq_of_solidLines hSelector hComment (solidLines_ruleText hLine _),
    flatMap_lineDeclarations_join hIndent fun d hd => (hds d hd).toIsDeclaration]

theorem noBrace_minifiedSelector (hSelector : NoBrace s) : NoBrace (minifiedSelector s) :=
  forall_mem_minifiedSelector (by decide) hSelector

theorem noBrace_minifiedBody (hds : ∀ d ∈ ds, IsCompactDeclaration d) :
    NoBrace (minifiedBody ds) := by
  refine forall_mem_minifiedBody (P := (isBrace · = false)) (by decide) ?_
  intro d hd
  exact ⟨(hds d hd).property_noBrace, (hds d hd).value_noBrace⟩

theorem oneLine_minified (hLine : OneLine s) (hds : ∀ d ∈ ds, IsCompactDeclaration d) :
    OneLine (minifiedSelector s ++ braced (minifiedBody ds)) := by
  have hLead : OneLine (minifiedSelector s) := forall_mem_minifiedSelector (by decide) hLine
  have hOpening : OneLine [.char '{'] := by decide
  have hBody : OneLine (minifiedBody ds) := by
    refine forall_mem_minifiedBody (P := (isLineBreak · = false)) (by decide) ?_
    intro d hd
    exact ⟨(hds d hd).property_oneLine, (hds d hd).value_oneLine⟩
  exact hLead.append (hOpening.append (hBody.append (by decide)))

theorem declarations_minify_writtenRule (hLine : OneLine s) (hSelector : NoBrace s)
    (hds : ∀ d ∈ ds, IsCompactDeclaration d) (hComment : hasComment (writtenRule s ds) = false) :
    declarations (minify (writtenRule s ds)) =
      .ofList (ds.map (Prod.map id (collapse (.char ' ')))) := by
  have hFree := hasComment_minify hComment
  rw [minify_writtenRule hSelector hds hComment] at hFree ⊢
  have hSolid : allBlank (minifiedSelector s ++ braced (minifiedBody ds)) = false :=
    allBlank_append_solid (by decide) _ _
  rw [declarations_eq, withoutComments_eq_self hFree,
    solidLines_of_solid (oneLine_minified hLine hds) hSolid, List.flatMap_singleton, braced,
    lineDeclarations_enclosed (noBrace_minifiedSelector hSelector) (noBrace_minifiedBody hds),
    filterMap_minifiedBody hds]

/-- A rule with its declarations on lines and the minified rule are one block each. The block of the
minified rule has the declarations of the other with collapsed values, and the same classes. -/
theorem blocks_minify_writtenRule (hLine : OneLine s) (hSelector : NoBrace s)
    (hds : ∀ d ∈ ds, IsCompactDeclaration d) (hComment : hasComment (writtenRule s ds) = false) :
    ∃ original minified, blocks (writtenRule s ds) = [original] ∧
      blocks (minify (writtenRule s ds)) = [minified] ∧
      declarations original = .ofList ds ∧
      (declarations minified).entries =
        (declarations original).entries.map (fun d => (d.1, collapse (.char ' ') d.2)) ∧
      ∀ policies, Utility.classes policies (declarations minified) =
        Utility.classes policies (declarations original) := by
  have hMinified : blocks (minify (writtenRule s ds)) =
      [blockText (minify (writtenRule s ds))] := by
    rw [minify_writtenRule hSelector hds hComment]
    exact blocks_of_isOneBlock (isOneBlock_rule (noBrace_minifiedSelector hSelector)
      (nested_of_noBrace (noBrace_minifiedBody hds)))
  have hOriginal : declarations (blockText (writtenRule s ds)) = .ofList ds := by
    rw [declarations_blockText, declarations_writtenRule hLine hSelector hds hComment]
  have hEntries : (declarations (blockText (minify (writtenRule s ds)))).entries =
      (declarations (blockText (writtenRule s ds))).entries.map
        (Prod.map id (collapse (.char ' '))) := by
    rw [declarations_blockText, declarations_minify_writtenRule hLine hSelector hds hComment,
      hOriginal, OrderedMap.entries_ofList_map]
  have hValues : ∀ d ∈ (declarations (blockText (writtenRule s ds))).entries,
      .char '\n' ∉ d.2 := by
    intro d hd hMem
    rw [hOriginal] at hd
    have hNone := (hds d (OrderedMap.mem_ofList hd)).value_oneLine _ hMem
    rw [isLineBreak_lineFeed] at hNone
    contradiction
  exact ⟨_, _, blocks_writtenRule hSelector hds, hMinified, hOriginal, hEntries,
    Utility.classes_collapse hValues hEntries⟩

/-- The blanks in a border's value are collapsed, and its classes stay. -/
theorem blocks_minify_writtenRule_border :
    let d : Text × Text := ("border", "1px  solid   #ffffff")
    OneLine "a" ∧ NoBrace "a" ∧ IsCompactDeclaration d ∧ hasComment (writtenRule "a" [d]) = false ∧
      ∃ minified, blocks (minify (writtenRule "a" [d])) = [minified] ∧
        (declarations minified).entries = [(("border" : Text), ("1px solid #ffffff" : Text))] ∧
        ∀ policies, Utility.classes policies (declarations minified) =
          .ok ["border", "border-white"] := by
  intro d
  have hd : IsCompactDeclaration d := by
    refine ⟨⟨?_, ⟨?_, ?_⟩, ?_, ?_, ?_, ?_, ⟨?_, ?_⟩, ?_, ?_⟩, ?_, ?_, ?_⟩
    all_goals decide
  have hLine : OneLine "a" := by decide
  have hSelector : NoBrace "a" := by decide
  have hds : ∀ e ∈ [d], IsCompactDeclaration e := by simpa using hd
  have hComment : hasComment (writtenRule "a" [d]) = false := by decide +kernel
  obtain ⟨original, minified, -, hBlocks, hOriginal, hEntries, hClasses⟩ :=
    blocks_minify_writtenRule hLine hSelector hds hComment
  refine ⟨hLine, hSelector, hd, hComment, minified, hBlocks, ?_, ?_⟩
  · rw [hEntries, hOriginal]
    decide +kernel
  · intro policies
    rw [hClasses, hOriginal]
    rcases policies with ⟨_ | _, _ | _⟩
    all_goals exact eq_ok_of_toOption (by decide +kernel)

end StyleScaffold.Css
