import StyleScaffold.Proofs.Css.CommentRemoval
import StyleScaffold.Proofs.Css.DeclarationRoundTrip

/-!
# The maps that are read from texts

Whatever a text looks like, the keys and the values that are read from it can be written on the two
sides of a colon (`IsSide`), and no key holds a colon. Nothing else is true of all texts: each map
of this kind is read from some text, also one that would be a comment where it is written. For that,
an empty comment is put behind each slash, which keeps slashes and stars apart until it is taken out
(`withoutComments_withSplitSlashes`).

* `isDeclaration_iff`: a declaration by its two sides.
* `exists_declarations_eq_iff`: the maps that are read are exactly the ones of this kind.
-/

namespace StyleScaffold.Css

open Text

/-! ## Sides of a colon -/

/-- The text is not empty, it is trimmed, it is a line, and it holds no brace. -/
structure IsSide (s : Text) : Prop where
  ne_nil : s ≠ []
  trim_eq : trim s = s
  lines_eq : lines s = [s]
  openingBrace_not_mem : ('\x7b' : CodePoint) ∉ s
  closingBrace_not_mem : ('\x7d' : CodePoint) ∉ s

/-- A text without line breaks is its own only line, unless it is empty. -/
theorem lines_of_oneLine {s : Text} (h : OneLine s) (hne : s ≠ []) : lines s = [s] := by
  have hCons : ∀ (s : Text) (c : CodePoint), OneLine (c :: s) → lines (c :: s) = [c :: s] := by
    intro s
    induction s with
    | nil =>
      intro c hc
      rw [lines.eq_3 c [] (by simp), hc c List.mem_cons_self, if_neg Bool.false_ne_true]
      rfl
    | cons d s ih =>
      intro c hc
      have hBreak := hc c List.mem_cons_self
      have hPair : ∀ rest, c = .char '\r' → d :: s = .char '\n' :: rest → False := by
        rintro rest rfl -
        exact absurd hBreak (by decide)
      rw [lines.eq_3 c (d :: s) hPair, hBreak, if_neg Bool.false_ne_true,
        ih d fun e he => hc e (List.mem_cons_of_mem c he)]
      rfl
  obtain ⟨c, rest, rfl⟩ := List.exists_cons_of_ne_nil hne
  exact hCons rest c h

theorem isSide_iff {s : Text} :
    IsSide s ↔ s ≠ [] ∧ Trimmed s ∧ OneLine s ∧ NoBrace s := by
  constructor
  · intro h
    refine ⟨h.ne_nil, h.trim_eq ▸ trimmed_trim s, ?_, ?_⟩
    · have hLine : s ∈ lines s := h.lines_eq ▸ List.mem_singleton_self s
      exact fun c hc => not_isLineBreak_of_mem_lines hLine hc
    · intro c hc
      rw [Bool.eq_false_iff]
      intro hBrace
      rcases isBrace_iff.1 hBrace with rfl | rfl
      · exact h.openingBrace_not_mem hc
      · exact h.closingBrace_not_mem hc
  · rintro ⟨hne, hTrimmed, hLine, hBrace⟩
    exact {
      ne_nil := hne
      trim_eq := hTrimmed.trim_eq
      lines_eq := lines_of_oneLine hLine hne
      openingBrace_not_mem := hBrace.not_mem rfl
      closingBrace_not_mem := hBrace.not_mem rfl }

/-- A declaration has a side on its left that holds no colon, and any side on its right. -/
theorem isDeclaration_iff {d : Text × Text} :
    IsDeclaration d ↔ (IsSide d.1 ∧ (':' : CodePoint) ∉ d.1) ∧ IsSide d.2 := by
  rw [isSide_iff, isSide_iff]
  constructor
  · intro h
    exact ⟨⟨⟨h.property_ne_nil, h.property_trimmed, h.property_oneLine, h.property_noBrace⟩,
      h.property_noColon⟩, h.value_ne_nil, h.value_trimmed, h.value_oneLine, h.value_noBrace⟩
  · rintro ⟨⟨⟨hProperty, hTrimmed, hLine, hBrace⟩, hColon⟩, hValue, hTrimmed', hLine', hBrace'⟩
    exact ⟨hProperty, hTrimmed, hLine, hBrace, hColon, hValue, hTrimmed', hLine', hBrace'⟩

/-! ## Texts that survive the removal of comments -/

/-- The text with an empty comment behind each slash. -/
def withSplitSlashes (s : Text) : Text :=
  s.flatMap fun c : CodePoint => if c = '/' then .char '/' :: commentText [] else [c]

/-- Taking the empty comments out gives the text back, with all comments that stand in it. -/
theorem withoutComments_withSplitSlashes (s : Text) :
    withoutComments (withSplitSlashes s) = s := by
  induction s with
  | nil => rw [withSplitSlashes, List.flatMap_nil, withoutComments]
  | cons c s ih =>
    rw [withSplitSlashes, List.flatMap_cons, ← withSplitSlashes]
    by_cases hc : c = '/'
    · have hEmpty : afterComment? (.char '*' :: .char '/' :: withSplitSlashes s) =
          some (withSplitSlashes s) := rfl
      -- the slash in front of the empty comment opens none, because a slash follows it
      rw [if_pos hc, List.cons_append, commentText_append, List.nil_append,
        withoutComments_cons (by simp), withoutComments_of_closed hEmpty, ih, hc]
    · rw [if_neg hc, List.singleton_append, withoutComments_cons fun _ hSlash _ => hc hSlash, ih]

/-! ## Maps -/

/-- A map is read from some text exactly when its keys and its values are not empty, trimmed, on one
line and without braces, and its keys without colons. -/
theorem exists_declarations_eq_iff {ds : Declarations} :
    (∃ text, declarations text = ds) ↔
      (∀ property ∈ ds.keys, IsSide property ∧ (':' : CodePoint) ∉ property) ∧
        ∀ value ∈ ds.values, IsSide value := by
  have hEntries : (∀ d ∈ ds.entries, IsDeclaration d) ↔
      (∀ property ∈ ds.keys, IsSide property ∧ (':' : CodePoint) ∉ property) ∧
        ∀ value ∈ ds.values, IsSide value := by
    simp only [OrderedMap.keys, OrderedMap.values, List.forall_mem_map, isDeclaration_iff]
    exact ⟨fun h => ⟨fun d hd => (h d hd).1, fun d hd => (h d hd).2⟩,
      fun h d hd => ⟨h.1 d hd, h.2 d hd⟩⟩
  rw [← hEntries]
  constructor
  · rintro ⟨text, rfl⟩ d hd
    exact isDeclaration_of_mem_declarations hd
  · intro h
    refine ⟨withSplitSlashes (declarationsText [] ds), ?_⟩
    rw [declarations_eq, withoutComments_withSplitSlashes,
      flatMap_lineDeclarations_declarationsText rfl h, OrderedMap.ofList_entries]

end StyleScaffold.Css
