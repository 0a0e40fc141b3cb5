import StyleScaffold.Proofs.Css.BlockDeclarations
import StyleScaffold.Proofs.Css.DeclarationRoundTrip
import StyleScaffold.Proofs.Css.RuleLayout

/-!
# Declarations in any layout

Between the declarations of a rule there can be any blanks. Those with a line break among them cut
the rule into rows, and only the rows with a brace are read piece by piece. From any other row, one
declaration is read at most.

* `map_trim_solidLines_rows`: the rows are the solid lines, but for blanks around them.
* `lineDeclarations_row`: what is read from a row that has a brace, or one declaration.
* `holdsTwo_iff`: which lines without a brace hold more.
* `declarations_laidOutRule`: the rule is read as its declarations if there is no such line, and
  never if there is one and the properties differ.
-/

namespace StyleScaffold.Css

open Text

/-- A declaration without semicolons, and the blanks behind it. -/
structure PlacedDeclaration where
  pair : Text × Text
  gap : Text
  isDeclaration : IsDeclaration pair
  property_noSemicolon : .char ';' ∉ pair.1
  value_noSemicolon : .char ';' ∉ pair.2
  blank : allBlank gap = true

/-- The declaration as it is written. -/
def PlacedDeclaration.text (d : PlacedDeclaration) : Text := declarationLine [] d.pair

/-- Written declarations with their blanks. -/
def placedText (ds : List PlacedDeclaration) : Text := ds.flatMap fun d => d.text ++ d.gap

/-- The rule with these declarations. -/
def laidOutRule (selector gap : Text) (ds : List PlacedDeclaration) : Text :=
  selector ++ .char ' ' :: braced (gap ++ placedText ds)

/-- One of the declarations is on the line, and one is behind it there. -/
def HoldsTwo (ds : List PlacedDeclaration) (line : Text) : Prop :=
  ∃ d ∈ ds, ∃ e ∈ ds, ∃ u w v, line = u ++ (d.text ++ w ++ e.text) ++ v

/-- What is on the line of an opening brace, with the brace between selector and blanks. -/
structure Opening where
  selector : Text
  gap : Text
  noBrace : NoBrace selector
  blank : allBlank gap = true

def Opening.text (o : Opening) : Text := o.selector ++ .char '{' :: o.gap

/-- Declarations between two broken gaps, with the braces that stand there. -/
structure Row where
  opening : Option Opening
  held : List PlacedDeclaration
  closed : Bool

/-- A row as far as it goes with the declarations on it. -/
def begunText (opening : Option Opening) (held : List PlacedDeclaration) : Text :=
  opening.elim [] Opening.text ++ placedText held

def Row.text (r : Row) : Text :=
  begunText r.opening r.held ++ if r.closed then [.char '}'] else []

/-- The rows in which declarations continue the row that has been begun. -/
def rows (opening : Option Opening) (held : List PlacedDeclaration) :
    List PlacedDeclaration → List Row
  | [] => [⟨opening, held, true⟩]
  | d :: ds =>
    if d.gap.any isLineBreak then ⟨opening, held ++ [d], false⟩ :: rows none [] ds
    else rows opening (held ++ [d]) ds

/-! ## Placed declarations -/

namespace PlacedDeclaration

theorem text_eq (d : PlacedDeclaration) :
    d.text = d.pair.1 ++ .char ':' :: .char ' ' :: d.pair.2 ++ [.char ';'] := by
  simp [text, declarationLine_eq]

theorem text_ne_nil (d : PlacedDeclaration) : d.text ≠ [] := by
  rw [text_eq]
  simp

theorem trimmed_text (d : PlacedDeclaration) : Trimmed d.text := by
  have hSemicolon : Trimmed [.char ';'] := by constructor <;> decide
  rw [text_eq]
  exact d.isDeclaration.property_trimmed.append hSemicolon d.isDeclaration.property_ne_nil
    (List.cons_ne_nil _ _) _

theorem count_text (d : PlacedDeclaration) : d.text.count (.char ';') = 1 := by
  have hProperty := List.count_eq_zero.2 d.property_noSemicolon
  have hValue := List.count_eq_zero.2 d.value_noSemicolon
  rw [text_eq]
  simp [List.count_append, hProperty, hValue]

end PlacedDeclaration

theorem placedText_cons (d : PlacedDeclaration) (ds : List PlacedDeclaration) :
    placedText (d :: ds) = d.text ++ d.gap ++ placedText ds := rfl

theorem begunText_concat (opening : Option Opening) (held : List PlacedDeclaration)
    (d : PlacedDeclaration) :
    begunText opening (held ++ [d]) = begunText opening held ++ d.text ++ d.gap := by
  simp [begunText, placedText]

/-- A row without braces. -/
theorem row_text_plain (held : List PlacedDeclaration) :
    Row.text ⟨none, held, false⟩ = placedText held := by
  simp [Row.text, begunText]

theorem noBrace_placedText (ds : List PlacedDeclaration) : NoBrace (placedText ds) := by
  induction ds with
  | nil => exact noBrace_nil
  | cons d ds ih =>
    have hText : NoBrace d.text := noBrace_declarationLine rfl d.isDeclaration
    rw [placedText_cons]
    exact (hText.append (noBrace_of_allBlank d.blank)).append ih

/-- Every declaration is written with one semicolon. -/
theorem count_placedText (ds : List PlacedDeclaration) :
    (placedText ds).count (.char ';') = ds.length := by
  induction ds with
  | nil => rfl
  | cons d ds ih =>
    rw [placedText_cons, List.count_append, List.count_append, d.count_text, ih,
      count_of_allBlank d.blank (by decide), List.length_cons]
    omega

/-- Piece by piece, all declarations are read. -/
theorem filterMap_cut_placedText {w : Text} (hw : allBlank w = true)
    (ds : List PlacedDeclaration) :
    (cut ';' (w ++ placedText ds)).filterMap declaration? = ds.map PlacedDeclaration.pair := by
  rw [filterMap_cut_append_left hw]
  induction ds generalizing w with
  | nil => rfl
  | cons d ds ih =>
    have hPiece : .char ';' ∉ d.pair.1 ++ .char ':' :: .char ' ' :: d.pair.2 := by
      simp [d.property_noSemicolon, d.value_noSemicolon]
    have hRead := declaration?_piece d.isDeclaration.property_trimmed
      d.isDeclaration.property_ne_nil d.isDeclaration.property_noColon d.isDeclaration.value_trimmed
      d.isDeclaration.value_ne_nil d.value_noSemicolon
    rw [placedText_cons, d.text_eq, List.append_assoc, List.append_assoc, List.singleton_append,
      cut_append_cons hPiece, List.filterMap_cons_some hRead, filterMap_cut_append_left d.blank,
      ih d.blank, List.map_cons]

/-! ## The rows of a rule -/

theorem flatMap_held_rows (opening : Option Opening) (held ds : List PlacedDeclaration) :
    (rows opening held ds).flatMap Row.held = held ++ ds := by
  induction ds generalizing opening held with
  | nil => simp [rows]
  | cons d ds ih =>
    unfold rows
    split
    · rw [List.flatMap_cons, ih]
      simp
    · rw [ih]
      simp

/-- Where a gap is broken a row ends, and the blanks of that gap belong to no line. -/
theorem map_trim_solidLines_rows {opening : Option Opening} {held : List PlacedDeclaration}
    (hLine : OneLine (begunText opening held)) (ds : List PlacedDeclaration) :
    (solidLines (begunText opening held ++ (placedText ds ++ [.char '}']))).map trim =
      (rows opening held ds).map fun r => trim r.text := by
  -- the row that is begun changes with each declaration that is taken from those to come
  induction ds generalizing opening held with
  | nil =>
    have hSolid : allBlank (begunText opening held ++ [.char '}']) = false :=
      allBlank_append_solid (by decide) _ []
    exact congrArg (List.map trim) (solidLines_of_solid (hLine.append (by decide)) hSolid)
  | cons d ds ih =>
    have hText : OneLine (begunText opening held ++ d.text) :=
      hLine.append (oneLine_declarationLine d.isDeclaration)
    unfold rows
    split
    · rename_i hBreak
      have hSolid : allBlank (begunText opening held ++ d.text) = false := by
        rw [allBlank_append, PlacedDeclaration.text, allBlank_declarationLine, Bool.and_false]
      have hRow : trim (begunText opening held ++ d.text) =
          trim (Row.text ⟨opening, held ++ [d], false⟩) := by
        rw [Row.text, begunText_concat, ← trim_append_right d.blank]
        simp
      have hNone : OneLine (begunText none []) := by decide
      have hSplit : begunText opening held ++ (placedText (d :: ds) ++ [.char '}']) =
          begunText opening held ++ d.text ++ (d.gap ++ (placedText ds ++ [.char '}'])) := by
        simp [placedText_cons]
      rw [hSplit, map_trim_solidLines_gap ⟨d.blank, List.any_eq_true.1 hBreak⟩,
        solidLines_of_solid hText hSolid, List.map_singleton, hRow, List.map_cons, ← ih hNone]
      rfl
    · rename_i hBreak
      have hGap := any_isLineBreak_iff.1 (Bool.eq_false_iff.2 hBreak)
      have hNext : OneLine (begunText opening (held ++ [d])) := by
        rw [begunText_concat]
        exact hText.append hGap
      rw [← ih hNext]
      simp [begunText_concat, placedText_cons]

/-- The first row has the selector on it, and is that alone where the blanks behind the brace are
broken. -/
theorem exists_rows_laidOutRule {selector gap : Text} (hLine : OneLine selector)
    (hBrace : NoBrace selector) (hGap : allBlank gap = true) (ds : List PlacedDeclaration) :
    ∃ rs : List Row, (solidLines (laidOutRule selector gap ds)).map trim =
        (rs.map fun r => trim r.text) ∧ rs.flatMap Row.held = ds := by
  have hSpace : NoBrace (selector ++ [.char ' ']) := hBrace.append (by decide)
  have hHead : OneLine (selector ++ [.char ' '] ++ [.char '{']) :=
    (hLine.append (by decide)).append (by decide)
  by_cases hBreak : gap.any isLineBreak = true
  · have hSolid : allBlank (selector ++ [.char ' '] ++ [.char '{']) = false :=
      allBlank_append_solid (by decide) _ []
    have hSplit : laidOutRule selector gap ds =
        selector ++ [.char ' '] ++ [.char '{'] ++ (gap ++ (placedText ds ++ [.char '}'])) := by
      simp [laidOutRule, braced]
    have hNil : allBlank [] = true := rfl
    have hNone : OneLine (begunText none []) := by decide
    let first : Row := ⟨some ⟨selector ++ [.char ' '], [], hSpace, hNil⟩, [], false⟩
    refine ⟨first :: rows none [] ds, ?_, ?_⟩
    · rw [hSplit, map_trim_solidLines_gap ⟨hGap, List.any_eq_true.1 hBreak⟩,
        solidLines_of_solid hHead hSolid, List.map_singleton, List.map_cons,
        ← map_trim_solidLines_rows hNone]
      simp [first, Row.text, begunText, Opening.text, placedText]
    · rw [List.flatMap_cons, flatMap_held_rows]
      rfl
  · have hOne := any_isLineBreak_iff.1 (Bool.eq_false_iff.2 hBreak)
    refine ⟨rows (some ⟨selector ++ [.char ' '], gap, hSpace, hGap⟩) [] ds, ?_,
      flatMap_held_rows _ [] ds⟩
    rw [← map_trim_solidLines_rows]
    · simp [laidOutRule, braced, begunText, Opening.text, placedText]
    · simpa [begunText, Opening.text, placedText] using hHead.append hOne

/-! ## Reading rows -/

theorem noBrace_row_iff {r : Row} : NoBrace r.text ↔ r.opening = none ∧ r.closed = false := by
  obtain ⟨opening, held, closed⟩ := r
  constructor
  · intro h
    cases opening with
    | none =>
      cases closed with
      | false => exact ⟨rfl, rfl⟩
      | true => exact absurd (h (.char '}') (by simp [Row.text])) (by decide)
    | some o =>
      exact absurd (h (.char '{') (by simp [Row.text, begunText, Opening.text])) (by decide)
  · rintro ⟨rfl, rfl⟩
    rw [row_text_plain]
    exact noBrace_placedText held

/-- A row with a brace is read piece by piece, and any other row as one declaration. -/
theorem lineDeclarations_row {r : Row} (h : NoBrace r.text → r.held.length ≤ 1) :
    lineDeclarations r.text = r.held.map PlacedDeclaration.pair := by
  rw [noBrace_row_iff] at h
  obtain ⟨opening, held, closed⟩ := r
  cases opening with
  | none =>
    cases closed with
    | false =>
      rw [row_text_plain]
      match held, h ⟨rfl, rfl⟩ with
      | [], _ => rfl
      | [d], _ =>
        rw [placedText_cons, placedText, List.flatMap_nil, List.append_nil,
          lineDeclarations_append_right d.blank]
        exact lineDeclarations_declarationLine rfl d.isDeclaration
    | true =>
      have hRow : Row.text ⟨none, held, true⟩ = placedText held ++ [.char '}'] := by
        simp [Row.text, begunText]
      have hPieces := filterMap_cut_placedText (w := []) rfl held
      rw [hRow, lineDeclarations_closing (noBrace_placedText held)]
      exact hPieces
  | some o =>
    have hBody : NoBrace (o.gap ++ placedText held) :=
      (noBrace_of_allBlank o.blank).append (noBrace_placedText held)
    have hPieces := filterMap_cut_placedText o.blank held
    cases closed with
    | false =>
      have hRow : Row.text ⟨some o, held, false⟩ =
          o.selector ++ .char '{' :: (o.gap ++ placedText held) := by
        simp [Row.text, begunText, Opening.text]
      rw [hRow, lineDeclarations_opening o.noBrace hBody, hPieces]
    | true =>
      have hRow : Row.text ⟨some o, held, true⟩ =
          o.selector ++ .char '{' :: (o.gap ++ placedText held ++ [.char '}']) := by
        simp [Row.text, begunText, Opening.text]
      rw [hRow, lineDeclarations_enclosed o.noBrace hBody, hPieces]

theorem length_lineDeclarations_row_le (r : Row) :
    (lineDeclarations r.text).length ≤ r.held.length := by
  by_cases h : NoBrace r.text → r.held.length ≤ 1
  · have hLength := congrArg List.length (lineDeclarations_row h)
    rw [List.length_map] at hLength
    exact Nat.le_of_eq hLength
  · rw [Classical.not_imp] at h
    have := length_lineDeclarations_of_noBrace h.1
    omega

/-! ## Lines that hold two declarations -/

/-- Each of the two has its own semicolon, so it does not matter where in the line they are. -/
theorem two_le_count_of_holdsTwo {ds : List PlacedDeclaration} {line : Text}
    (h : HoldsTwo ds line) : 2 ≤ line.count (.char ';') := by
  obtain ⟨d, -, e, -, u, w, v, rfl⟩ := h
  simp only [List.count_append, d.count_text, e.count_text]
  omega

theorem holdsTwo_iff {ds : List PlacedDeclaration} {r : Row} {line : Text} (hHeld : r.held ⊆ ds)
    (hBrace : NoBrace r.text) (hLine : trim line = trim r.text) :
    HoldsTwo ds line ↔ 2 ≤ r.held.length := by
  obtain ⟨opening, held, closed⟩ := r
  obtain ⟨rfl, rfl⟩ := noBrace_row_iff.1 hBrace
  rw [row_text_plain] at hLine
  constructor
  · intro h
    have hSemicolon : isBlank (.char ';') = false := by decide
    have hCount := two_le_count_of_holdsTwo h
    rwa [← count_trim hSemicolon, hLine, count_trim hSemicolon, count_placedText] at hCount
  · intro h
    match held, h with
    | d :: e :: more, _ =>
      have hTwo := d.trimmed_text.append e.trimmed_text d.text_ne_nil e.text_ne_nil d.gap
      obtain ⟨v, hv⟩ := hTwo.exists_trim_append (by simp [d.text_ne_nil]) (e.gap ++ placedText more)
      obtain ⟨u, u', -, -, hEq⟩ := exists_trim line
      have hPlaced : placedText (d :: e :: more) =
          d.text ++ d.gap ++ e.text ++ (e.gap ++ placedText more) := by
        simp [placedText_cons]
      refine ⟨d, hHeld (by simp), e, hHeld (by simp), u, d.gap, v ++ u', ?_⟩
      rw [hEq, hLine, hPlaced, hv]
      simp only [List.append_assoc]

/-- The lines of a text that consists of such rows. -/
theorem exists_holdsTwo_iff {s : Text} {rs : List Row} {ds : List PlacedDeclaration}
    (hRows : (solidLines s).map trim = rs.map fun r => trim r.text)
    (hHeld : rs.flatMap Row.held = ds) :
    (∃ line ∈ lines s, NoBrace line ∧ HoldsTwo ds line) ↔
      ∃ r ∈ rs, NoBrace r.text ∧ 2 ≤ r.held.length := by
  have held_subset : ∀ r ∈ rs, r.held ⊆ ds := by
    intro r hr d hd
    rw [← hHeld]
    exact List.mem_flatMap.2 ⟨r, hr, hd⟩
  constructor
  · rintro ⟨line, hLine, hBrace, hTwo⟩
    have hSolid : line ∈ solidLines s := by
      refine List.mem_filter.2 ⟨hLine, ?_⟩
      cases hBlank : allBlank line with
      | false => rfl
      | true =>
        have hCount := two_le_count_of_holdsTwo hTwo
        rw [count_of_allBlank hBlank (by decide)] at hCount
        omega
    have hMem : trim line ∈ rs.map fun r => trim r.text := hRows ▸ List.mem_map_of_mem hSolid
    obtain ⟨r, hr, hTrim⟩ := List.mem_map.1 hMem
    have hRow : NoBrace r.text := by rwa [← noBrace_trim_iff, hTrim, noBrace_trim_iff]
    exact ⟨r, hr, hRow, (holdsTwo_iff (held_subset r hr) hRow hTrim.symm).1 hTwo⟩
  · rintro ⟨r, hr, hRow, hTwo⟩
    have hMem : trim r.text ∈ (solidLines s).map trim := hRows ▸ List.mem_map_of_mem hr
    obtain ⟨line, hLine, hTrim⟩ := List.mem_map.1 hMem
    have hBrace : NoBrace line := by rwa [← noBrace_trim_iff, hTrim, noBrace_trim_iff]
    exact ⟨line, (List.mem_filter.1 hLine).1, hBrace,
      (holdsTwo_iff (held_subset r hr) hRow hTrim).2 hTwo⟩

/-! ## What is read from a rule -/

theorem flatMap_lineDeclarations_rows {rs : List Row}
    (h : ∀ r ∈ rs, NoBrace r.text → r.held.length ≤ 1) :
    rs.flatMap (fun r => lineDeclarations r.text) =
      (rs.flatMap Row.held).map PlacedDeclaration.pair := by
  rw [List.map_flatMap, List.flatMap_def, List.flatMap_def]
  exact congrArg List.flatten (List.map_congr_left fun r hr => lineDeclarations_row (h r hr))

theorem length_flatMap_lineDeclarations_le (rs : List Row) :
    (rs.flatMap fun r => lineDeclarations r.text).length ≤ (rs.flatMap Row.held).length := by
  induction rs with
  | nil => exact Nat.le_refl 0
  | cons r rs ih =>
    have := length_lineDeclarations_row_le r
    rw [List.flatMap_cons, List.flatMap_cons, List.length_append, List.length_append]
    omega

/-- One row without a brace that holds two declarations is enough to lose one. -/
theorem length_flatMap_lineDeclarations_lt {rs : List Row}
    (h : ∃ r ∈ rs, NoBrace r.text ∧ 2 ≤ r.held.length) :
    (rs.flatMap fun r => lineDeclarations r.text).length < (rs.flatMap Row.held).length := by
  obtain ⟨r, hr, hRow, hTwo⟩ := h
  obtain ⟨front, behind, rfl⟩ := List.append_of_mem hr
  have hFront := length_flatMap_lineDeclarations_le front
  have hBehind := length_flatMap_lineDeclarations_le behind
  have hOne := length_lineDeclarations_of_noBrace hRow
  simp only [List.flatMap_append, List.flatMap_cons, List.length_append]
  omega

/-- If no line without a brace holds two of the declarations, the rule is read as the map that they
write: a repeated property keeps its first place and has its last value. If one does, it is not read
so, unless a property is repeated. -/
theorem declarations_laidOutRule {selector gap : Text} {ds : List PlacedDeclaration}
    (hLine : OneLine selector) (hBrace : NoBrace selector) (hGap : allBlank gap = true)
    (hComment : hasComment (laidOutRule selector gap ds) = false) :
    ((∀ line ∈ lines (laidOutRule selector gap ds), NoBrace line → ¬ HoldsTwo ds line) →
        declarations (laidOutRule selector gap ds) = .ofList (ds.map PlacedDeclaration.pair)) ∧
      ((∃ line ∈ lines (laidOutRule selector gap ds), NoBrace line ∧ HoldsTwo ds line) →
        (ds.map fun d => d.pair.1).Nodup →
        declarations (laidOutRule selector gap ds) ≠ .ofList (ds.map PlacedDeclaration.pair)) := by
  obtain ⟨rs, hRows, hHeld⟩ := exists_rows_laidOutRule hLine hBrace hGap ds
  have hRead : declarations (laidOutRule selector gap ds) =
      .ofList (rs.flatMap fun r => lineDeclarations r.text) := by
    rw [declarations_eq_codeLines, codeLines, withoutComments_eq_self hComment, hRows,
      List.flatMap_map]
    simp only [lineDeclarations_trim]
  rw [hRead]
  constructor
  · intro hNone
    rw [flatMap_lineDeclarations_rows, hHeld]
    intro r hr hRow
    by_cases hTwo : 2 ≤ r.held.length
    · obtain ⟨line, hMem, hPlain, hHolds⟩ := (exists_holdsTwo_iff hRows hHeld).2 ⟨r, hr, hRow, hTwo⟩
      exact absurd hHolds (hNone line hMem hPlain)
    · omega
  · intro hTwo hDistinct hEq
    have hLess := length_flatMap_lineDeclarations_lt ((exists_holdsTwo_iff hRows hHeld).1 hTwo)
    have hFound := OrderedMap.length_ofList_le (rs.flatMap fun r => lineDeclarations r.text)
    have hAll : (OrderedMap.ofList (ds.map PlacedDeclaration.pair)).entries =
        ds.map PlacedDeclaration.pair := by
      apply OrderedMap.entries_ofList
      rwa [List.map_map]
    rw [hEq, hAll, List.length_map] at hFound
    rw [hHeld] at hLess
    omega

/-- Two declarations with some blanks between them. -/
def redAtTop (between : Text) (h : allBlank between = true) : List PlacedDeclaration :=
  have red : IsDeclaration ("color", "red") := by
    refine ⟨?_, ⟨?_, ?_⟩, ?_, ?_, ?_, ?_, ⟨?_, ?_⟩, ?_, ?_⟩ <;> decide
  have top : IsDeclaration ("top", "0") := by
    refine ⟨?_, ⟨?_, ?_⟩, ?_, ?_, ?_, ?_, ⟨?_, ?_⟩, ?_, ?_⟩ <;> decide
  [⟨("color", "red"), between, red, by decide, by decide, h⟩,
    ⟨("top", "0"), "\n", top, by decide, by decide, rfl⟩]

/-- They are read from two lines, and not from one. -/
theorem declarations_laidOutRule_redAtTop :
    OneLine "a" ∧ NoBrace "a" ∧ allBlank "\n" = true ∧
      declarations (laidOutRule "a" "\n" (redAtTop "\n" rfl)) =
        .ofList [("color", "red"), ("top", "0")] ∧
      declarations (laidOutRule "a" "\n" (redAtTop " " rfl)) ≠
        .ofList [("color", "red"), ("top", "0")] := by
  have hLine : OneLine "a" := by decide
  have hBrace : NoBrace "a" := by decide
  have hGap : allBlank "\n" = true := by decide
  have hTwoLines : hasComment (laidOutRule "a" "\n" (redAtTop "\n" rfl)) = false := by
    decide +kernel
  have hOneLine : hasComment (laidOutRule "a" "\n" (redAtTop " " rfl)) = false := by
    decide +kernel
  refine ⟨hLine, hBrace, hGap, (declarations_laidOutRule hLine hBrace hGap hTwoLines).1 ?_,
    (declarations_laidOutRule hLine hBrace hGap hOneLine).2 ?_ ?_⟩
  · have hCount : ∀ line ∈ lines (laidOutRule "a" "\n" (redAtTop "\n" rfl)),
        NoBrace line → line.count (.char ';') < 2 := by decide +kernel
    intro line hMem hPlain hTwo
    have := hCount line hMem hPlain
    have := two_le_count_of_holdsTwo hTwo
    omega
  · refine ⟨"color: red; top: 0;", by decide +kernel, by decide, ?_⟩
    exact ⟨_, List.mem_cons_self, _, List.mem_cons_of_mem _ List.mem_cons_self, [], " ", [], rfl⟩
  · decide

end StyleScaffold.Css
