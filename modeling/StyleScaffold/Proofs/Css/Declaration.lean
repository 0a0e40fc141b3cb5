import StyleScaffold.Css.Declaration
import StyleScaffold.Proofs.Css.Comment
import StyleScaffold.Proofs.Css.SolidLines
import StyleScaffold.Proofs.OrderedMap
import StyleScaffold.Proofs.Text.Plain

/-!
# What is read as a declaration

* `isDeclaration_of_mem_declarations` (no assumption on the block): whatever the text is, each
  property and each value that is read from it is trimmed, on one line, without braces and not
  empty, and a property holds no colon. Values may hold colons and semicolons.
* `declarations_eq`: only the solid lines of a block without its comments matter, each by itself.
* `declaration?_of_sides`: a fragment is read as the two sides of its first colon.
* `lineDeclarations_append_brace`, `lineDeclarations_enclosed`: a line with braces is read piece by
  piece, but for the selectors.
-/

namespace StyleScaffold.Css

open Text

/-- The text holds no brace. -/
def NoBrace (s : Text) : Prop := ∀ c ∈ s, isBrace c = false

instance (s : Text) : Decidable (NoBrace s) :=
  inferInstanceAs (Decidable (∀ c ∈ s, isBrace c = false))

/-- The property and the value can stand in a line that is read as this declaration. -/
structure IsDeclaration (d : Text × Text) : Prop where
  property_ne_nil : d.1 ≠ []
  property_trimmed : Trimmed d.1
  property_oneLine : OneLine d.1
  property_noBrace : NoBrace d.1
  property_noColon : (':' : CodePoint) ∉ d.1
  value_ne_nil : d.2 ≠ []
  value_trimmed : Trimmed d.2
  value_oneLine : OneLine d.2
  value_noBrace : NoBrace d.2

/-- The declarations of a block in the order in which they are read. -/
def found (block : Text) : List (Text × Text) := (fragments block).filterMap declaration?

/-- The declarations of one line. -/
def lineDeclarations (line : Text) : List (Text × Text) :=
  (fragmentsOfLine line).filterMap declaration?

/-! ## Semicolons -/

theorem dropSemicolon_append (s : Text) : dropSemicolon (s ++ [.char ';']) = trimRight s := by
  simp [dropSemicolon, trimRight]

theorem dropSemicolon_eq (s : Text) :
    (∃ t, s = t ++ [.char ';'] ∧ dropSemicolon s = trimRight t) ∨ dropSemicolon s = s := by
  by_cases h : s.getLast? = some (';' : CodePoint)
  · obtain ⟨t, rfl⟩ := List.getLast?_eq_some_iff.1 h
    exact Or.inl ⟨t, rfl, dropSemicolon_append t⟩
  · refine Or.inr ?_
    unfold dropSemicolon
    split
    · rename_i rest hReverse
      refine absurd ?_ h
      rw [← List.head?_reverse, hReverse]
      rfl
    · rfl

theorem dropSemicolon_of_not_mem {s : Text} (h : .char ';' ∉ s) : dropSemicolon s = s := by
  rcases dropSemicolon_eq s with ⟨t, rfl, -⟩ | hEq
  · simp at h
  · exact hEq

theorem dropSemicolon_sublist (s : Text) : (dropSemicolon s).Sublist s := by
  rcases dropSemicolon_eq s with ⟨t, rfl, h⟩ | h
  · rw [h]
    exact (trimRight_sublist t).trans (List.sublist_append_left t _)
  · exact h.symm ▸ List.Sublist.refl s

theorem trimmed_dropSemicolon {s : Text} (hs : Trimmed s) : Trimmed (dropSemicolon s) := by
  rcases dropSemicolon_eq s with ⟨t, rfl, h⟩ | h
  · rw [h]
    refine ⟨?_, isBlank_of_getLast?_trimRight⟩
    intro c hc
    obtain ⟨w, -, hw⟩ := exists_trimRight t
    apply hs.head
    rw [hw]
    cases hTrim : trimRight t with
    | nil => simp [hTrim] at hc
    | cons d rest => simpa [hTrim] using hc
  · rwa [h]

/-! ## One fragment -/

/-- A declaration is the trimmed sides of the first colon, none of them empty. -/
theorem declaration?_eq_some {fragment : Text} {d : Text × Text}
    (h : declaration? fragment = some d) :
    ∃ left right, fragment = left ++ (':' : CodePoint) :: right ∧ (':' : CodePoint) ∉ left ∧
      d = (trim left, dropSemicolon (trim right)) ∧ d.1 ≠ [] ∧ d.2 ≠ [] := by
  unfold declaration? at h
  split at h
  · cases h
  · rename_i left right hHalves
    obtain ⟨hFragment, hLeft⟩ := halves?_eq_some_iff.1 hHalves
    simp only [Option.ite_none_left_eq_some, Option.some.injEq, Bool.or_eq_true,
      List.isEmpty_iff, not_or] at h
    obtain ⟨⟨hProperty, hValue⟩, rfl⟩ := h
    exact ⟨left, right, hFragment, hLeft, rfl, hProperty, hValue⟩

/-- The two sides of a colon are the declaration, if neither is empty. -/
theorem declaration?_of_sides {left right property value : Text} (hColon : .char ':' ∉ left)
    (hProperty : trim left = property) (hValue : dropSemicolon (trim right) = value)
    (hLeft : property ≠ []) (hRight : value ≠ []) :
    declaration? (left ++ .char ':' :: right) = some (property, value) := by
  rw [declaration?, halves?_append hColon]
  dsimp only
  rw [hProperty, hValue, if_neg]
  simp [hLeft, hRight]

/-- A property and a value with a colon and a space between them. -/
theorem declaration?_piece {property value : Text} (hProperty : Trimmed property)
    (hLeft : property ≠ []) (hColon : .char ':' ∉ property) (hValue : Trimmed value)
    (hRight : value ≠ []) (hSemicolon : .char ';' ∉ value) :
    declaration? (property ++ .char ':' :: .char ' ' :: value) = some (property, value) := by
  refine declaration?_of_sides hColon hProperty.trim_eq ?_ hLeft hRight
  rw [← List.singleton_append, trim_append_left (by decide), hValue.trim_eq,
    dropSemicolon_of_not_mem hSemicolon]

theorem declaration?_sublist {fragment : Text} {d : Text × Text}
    (h : declaration? fragment = some d) : (d.1 ++ d.2).Sublist fragment := by
  obtain ⟨left, right, rfl, -, rfl, -, -⟩ := declaration?_eq_some h
  refine (trim_sublist left).append ?_
  exact ((dropSemicolon_sublist _).trans (trim_sublist right)).cons _

theorem isDeclaration_of_declaration? {fragment : Text} {d : Text × Text}
    (hLine : OneLine fragment) (hBrace : NoBrace fragment)
    (h : declaration? fragment = some d) : IsDeclaration d := by
  have hSub := (declaration?_sublist h).subset
  obtain ⟨left, right, -, hLeft, rfl, hProperty, hValue⟩ := declaration?_eq_some h
  have inProperty : ∀ c ∈ trim left, c ∈ fragment := fun c hc => hSub (by simp [hc])
  have inValue : ∀ c ∈ dropSemicolon (trim right), c ∈ fragment := fun c hc => hSub (by simp [hc])
  exact {
    property_ne_nil := hProperty
    property_trimmed := trimmed_trim left
    property_oneLine := fun c hc => hLine c (inProperty c hc)
    property_noBrace := fun c hc => hBrace c (inProperty c hc)
    property_noColon := fun hc => hLeft ((trim_sublist left).subset hc)
    value_ne_nil := hValue
    value_trimmed := trimmed_dropSemicolon (trimmed_trim right)
    value_oneLine := fun c hc => hLine c (inValue c hc)
    value_noBrace := fun c hc => hBrace c (inValue c hc) }

/-! ## One line -/

theorem isBrace_iff {c : CodePoint} : isBrace c = true ↔ c = '{' ∨ c = '}' := by
  simp [isBrace]

theorem isBlank_of_isBrace {c : CodePoint} (h : isBrace c = true) : isBlank c = false := by
  rcases isBrace_iff.1 h with rfl | rfl <;> decide

theorem isBrace_of_isBlank {c : CodePoint} (h : isBlank c = true) : isBrace c = false := by
  rw [Bool.eq_false_iff]
  intro hBrace
  rw [isBlank_of_isBrace hBrace] at h
  contradiction

theorem noBrace_nil : NoBrace [] := by decide

theorem noBrace_cons {c : CodePoint} {s : Text} :
    NoBrace (c :: s) ↔ isBrace c = false ∧ NoBrace s := List.forall_mem_cons

theorem any_isBrace_iff {s : Text} : s.any isBrace = false ↔ NoBrace s := by
  simp [NoBrace]

theorem NoBrace.not_mem {s : Text} (h : NoBrace s) {c : CodePoint} (hc : isBrace c = true) :
    c ∉ s := by
  intro hMem
  rw [h c hMem] at hc
  contradiction

theorem NoBrace.append {s t : Text} (hs : NoBrace s) (ht : NoBrace t) : NoBrace (s ++ t) := by
  intro c hc
  rcases List.mem_append.1 hc with hc | hc
  · exact hs c hc
  · exact ht c hc

theorem noBrace_of_allBlank {s : Text} (hs : allBlank s = true) : NoBrace s :=
  fun c hc => isBrace_of_isBlank (allBlank_iff.1 hs c hc)

theorem noBrace_trim_iff {s : Text} : NoBrace (trim s) ↔ NoBrace s := by
  have hAny : (trim s).any isBrace = s.any isBrace := by
    refine apply_trim (f := (List.any · isBrace)) ?_ ?_ s
    · intro w hw t
      rw [List.any_append, any_isBrace_iff.2 (noBrace_of_allBlank hw), Bool.false_or]
    · intro w hw t
      rw [List.any_append, any_isBrace_iff.2 (noBrace_of_allBlank hw), Bool.or_false]
  rw [← any_isBrace_iff, hAny, any_isBrace_iff]

theorem isBrace_of_isPlainChar {c : CodePoint} (h : isPlainChar c = true) : isBrace c = false := by
  rw [Bool.eq_false_iff]
  intro hBrace
  rcases isBrace_iff.1 hBrace with rfl | rfl <;> exact absurd h (by decide)

theorem isLineBreak_of_isPlainChar {c : CodePoint} (h : isPlainChar c = true) :
    isLineBreak c = false := by
  rw [Bool.eq_false_iff]
  intro hBreak
  exact absurd (isBlank_of_isLineBreak hBreak) (by simp [isBlank_of_isPlainChar h])

theorem noBrace_of_mem_bracePieces {line piece : Text} {brace : Option CodePoint}
    (h : (piece, brace) ∈ bracePieces line) : NoBrace piece := by
  induction line generalizing piece brace with
  | nil =>
    obtain ⟨rfl, rfl⟩ : piece = [] ∧ brace = none := by simpa [bracePieces] using h
    exact noBrace_nil
  | cons c cs ih =>
    unfold bracePieces at h
    split at h
    · rcases List.mem_cons.1 h with hFirst | hRest
      · simp only [Prod.mk.injEq] at hFirst
        rw [hFirst.1]
        exact noBrace_nil
      · exact ih hRest
    · rename_i hc
      rw [Bool.not_eq_true] at hc
      split at h
      · obtain ⟨rfl, rfl⟩ : piece = [c] ∧ brace = none := by simpa using h
        exact noBrace_cons.2 ⟨hc, noBrace_nil⟩
      · rename_i first b rest hPieces
        rw [hPieces] at ih
        rcases List.mem_cons.1 h with hFirst | hRest
        · simp only [Prod.mk.injEq] at hFirst
          rw [hFirst.1]
          exact noBrace_cons.2 ⟨hc, ih List.mem_cons_self⟩
        · exact ih (List.mem_cons_of_mem _ hRest)

theorem flatten_bracePieces_sublist (line : Text) :
    ((bracePieces line).map Prod.fst).flatten.Sublist line := by
  induction line with
  | nil => exact List.Sublist.refl []
  | cons c cs ih =>
    unfold bracePieces
    split
    · exact ih.cons c
    · split
      · simp
      · rename_i piece brace rest hPieces
        rw [hPieces, List.map_cons, List.flatten_cons] at ih
        exact ih.cons_cons c

theorem flatten_fragmentsOfLine_sublist (line : Text) :
    (fragmentsOfLine line).flatten.Sublist line := by
  unfold fragmentsOfLine
  split
  · refine List.Sublist.trans ?_ (flatten_bracePieces_sublist line)
    induction bracePieces line with
    | nil => exact List.Sublist.refl []
    | cons p pieces ih =>
      obtain ⟨piece, brace⟩ := p
      rw [List.flatMap_cons, List.flatten_append, List.map_cons, List.flatten_cons]
      refine List.Sublist.append ?_ ih
      dsimp only
      split
      · exact List.nil_sublist _
      · exact flatten_cut_sublist ';' piece
  · simp

theorem noBrace_of_mem_fragmentsOfLine {line fragment : Text}
    (h : fragment ∈ fragmentsOfLine line) : NoBrace fragment := by
  unfold fragmentsOfLine at h
  split at h
  · obtain ⟨⟨piece, brace⟩, hPiece, hFragment⟩ := List.mem_flatMap.1 h
    dsimp only at hFragment
    split at hFragment
    · simp at hFragment
    · intro c hc
      apply noBrace_of_mem_bracePieces hPiece
      exact (flatten_cut_sublist ';' piece).subset (List.mem_flatten.2 ⟨fragment, hFragment, hc⟩)
  · rename_i hLine
    rw [List.mem_singleton] at h
    subst h
    exact any_isBrace_iff.1 (Bool.eq_false_iff.2 hLine)

theorem isDeclaration_of_mem_lineDeclarations {line : Text} (hLine : OneLine line)
    {d : Text × Text} (h : d ∈ lineDeclarations line) : IsDeclaration d := by
  obtain ⟨fragment, hFragment, hd⟩ := List.mem_filterMap.1 h
  refine isDeclaration_of_declaration? (hLine.of_subset ?_)
    (noBrace_of_mem_fragmentsOfLine hFragment) hd
  intro c hc
  exact (flatten_fragmentsOfLine_sublist line).subset (List.mem_flatten.2 ⟨fragment, hFragment, hc⟩)

theorem fragmentsOfLine_of_noBrace {line : Text} (h : NoBrace line) :
    fragmentsOfLine line = [line] := by
  rw [fragmentsOfLine, any_isBrace_iff.2 h, if_neg Bool.false_ne_true]

theorem length_lineDeclarations_of_noBrace {line : Text} (h : NoBrace line) :
    (lineDeclarations line).length ≤ 1 := by
  rw [lineDeclarations, fragmentsOfLine_of_noBrace h]
  exact List.length_filterMap_le declaration? [line]

theorem flatMap_lineDeclarations_of_noBrace {ls : List Text} (h : ∀ line ∈ ls, NoBrace line) :
    ls.flatMap lineDeclarations = ls.filterMap declaration? := by
  induction ls with
  | nil => rfl
  | cons line rest ih =>
    rw [List.flatMap_cons, ih fun other hOther => h other (List.mem_cons_of_mem _ hOther),
      lineDeclarations, fragmentsOfLine_of_noBrace (h line List.mem_cons_self),
      ← List.filterMap_append, List.singleton_append]

theorem lineDeclarations_of_allBlank {line : Text} (h : allBlank line = true) :
    lineDeclarations line = [] := by
  have hColon : (':' : CodePoint) ∉ line := not_mem_of_allBlank h (by decide)
  rw [lineDeclarations, fragmentsOfLine_of_noBrace (noBrace_of_allBlank h)]
  simp [declaration?, halves?_of_not_mem hColon]

/-! ## Lines with braces -/

theorem bracePieces_of_noBrace {s : Text} (h : NoBrace s) : bracePieces s = [(s, none)] := by
  induction s with
  | nil => rfl
  | cons c s ih =>
    rw [noBrace_cons] at h
    rw [bracePieces, h.1, if_neg Bool.false_ne_true, ih h.2]

theorem bracePieces_append_brace {u : Text} (hu : NoBrace u) {c : CodePoint}
    (hc : isBrace c = true) (t : Text) :
    bracePieces (u ++ c :: t) = (u, some c) :: bracePieces t := by
  induction u with
  | nil => rw [List.nil_append, bracePieces, if_pos hc]
  | cons d u ih =>
    rw [noBrace_cons] at hu
    rw [List.cons_append, bracePieces, hu.1, if_neg Bool.false_ne_true, ih hu.2]

theorem filterMap_cut_nil : (cut ';' []).filterMap declaration? = [] := rfl

theorem lineDeclarations_of_any_isBrace {line : Text} (h : line.any isBrace = true) :
    lineDeclarations line = (bracePieces line).flatMap fun (piece, brace) =>
      if brace = some '{' then [] else (cut ';' piece).filterMap declaration? := by
  rw [lineDeclarations, fragmentsOfLine, if_pos h, List.filterMap_flatMap]
  congr 1
  funext ⟨piece, brace⟩
  dsimp only
  split <;> rfl

/-- In front of an opening brace there is a selector only. -/
theorem lineDeclarations_append_brace {u : Text} (hu : NoBrace u) (t : Text) :
    lineDeclarations (u ++ .char '{' :: t) =
      (bracePieces t).flatMap fun (piece, brace) =>
        if brace = some '{' then [] else (cut ';' piece).filterMap declaration? := by
  have hAny : (u ++ CodePoint.char '{' :: t).any isBrace = true := by
    simp [show isBrace (.char '{') = true from rfl]
  rw [lineDeclarations_of_any_isBrace hAny, bracePieces_append_brace hu rfl]
  rfl

theorem lineDeclarations_opening {u t : Text} (hu : NoBrace u) (ht : NoBrace t) :
    lineDeclarations (u ++ .char '{' :: t) = (cut ';' t).filterMap declaration? := by
  rw [lineDeclarations_append_brace hu, bracePieces_of_noBrace ht, List.flatMap_singleton]
  rfl

theorem lineDeclarations_closing {t : Text} (ht : NoBrace t) :
    lineDeclarations (t ++ [.char '}']) = (cut ';' t).filterMap declaration? := by
  have hAny : (t ++ [CodePoint.char '}']).any isBrace = true := by
    simp [show isBrace (.char '}') = true from rfl]
  rw [lineDeclarations_of_any_isBrace hAny, bracePieces_append_brace ht rfl]
  simp [bracePieces, filterMap_cut_nil]

/-- On one line with its braces, a rule is read piece by piece. -/
theorem lineDeclarations_enclosed {u t : Text} (hu : NoBrace u) (ht : NoBrace t) :
    lineDeclarations (u ++ .char '{' :: (t ++ [.char '}'])) =
      (cut ';' t).filterMap declaration? := by
  rw [lineDeclarations_append_brace hu, bracePieces_append_brace ht rfl]
  simp [bracePieces, filterMap_cut_nil]

/-! ## Blocks -/

theorem found_eq (block : Text) :
    found block = (solidLines (withoutComments block)).flatMap lineDeclarations := by
  have dropBlank : ∀ ls : List Text,
      (ls.filter fun line => ! allBlank line).flatMap lineDeclarations =
        ls.flatMap lineDeclarations := by
    intro ls
    induction ls with
    | nil => rfl
    | cons line rest ih =>
      cases h : allBlank line with
      | true => simp [h, ih, lineDeclarations_of_allBlank h]
      | false => simp [h, ih]
  rw [solidLines, dropBlank, found, fragments, List.filterMap_flatMap]
  rfl

theorem declarations_eq (block : Text) :
    declarations block =
      .ofList ((solidLines (withoutComments block)).flatMap lineDeclarations) := by
  rw [← found_eq]
  rfl

theorem isDeclaration_of_mem_declarations {block : Text} {d : Text × Text}
    (h : d ∈ (declarations block).entries) : IsDeclaration d := by
  rw [declarations_eq] at h
  obtain ⟨line, hLine, hd⟩ := List.mem_flatMap.1 (OrderedMap.mem_ofList h)
  exact isDeclaration_of_mem_lineDeclarations (oneLine_of_mem_solidLines hLine) hd

end StyleScaffold.Css
