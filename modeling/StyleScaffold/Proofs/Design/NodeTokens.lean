import StyleScaffold.Proofs.Design.PublishedStyles
import StyleScaffold.Proofs.Number.ExactNumeral

/-!
# Tokens of nodes

A node writes the size of its box and its solid fills under names made from its own, and a name may
itself end like one that is made. Yet the ending tells the name: the two endings of a size differ in
their last character, and the number of a fill has no hyphen in it.

* `append_ending_inj`, `append_fillEnding_inj`: what was appended to a name can be taken off again.
* `valuesAt_spacingTokens`, `fillsAt_fillEnding`: what a node writes under such a name.
* `designTokens_named_nodes`: so the last node of a name decides what is found there, whatever is
  published.
-/

namespace StyleScaffold

open Text

/-- The last occurrence of a character divides a text. -/
theorem Text.append_cons_inj {a a' b b' : Text} {c : CodePoint} (hb : c ∉ b) (hb' : c ∉ b')
    (h : a ++ c :: b = a' ++ c :: b') : a = a' ∧ b = b' := by
  have hReverse : b.reverse ++ c :: a.reverse = b'.reverse ++ c :: a'.reverse := by
    simpa using congrArg List.reverse h
  have hFront : c ∉ b.reverse := by simpa using hb
  have hHalves := halves?_append hFront a.reverse
  rw [hReverse, halves?_append (by simpa using hb')] at hHalves
  simpa [and_comm, eq_comm] using hHalves

namespace Design

open Json

/-! ## Names that are made -/

/-- The two sides of a box that are listed. -/
inductive Extent where
  | width
  | height
  deriving DecidableEq

namespace Extent

/-- What is appended to the name of a node. -/
def ending : Extent → Text
  | .width => "-width"
  | .height => "-height"

def ofBox : Extent → Box → Binary64
  | .width, b => b.width
  | .height, b => b.height

end Extent

theorem append_ending_inj {name name' : Text} {extent extent' : Extent} :
    name ++ extent.ending = name' ++ extent'.ending ↔ name = name' ∧ extent = extent' := by
  have hLast : ∀ (s : Text) (e : Extent), (s ++ e.ending).getLast? = e.ending.getLast? := by
    intro s e
    rw [List.getLast?_append]
    cases e <;> rfl
  constructor
  · intro h
    have hEnds := congrArg List.getLast? h
    rw [hLast, hLast] at hEnds
    have hExtent : extent = extent' := by
      cases extent <;> cases extent' <;> first | rfl | exact absurd hEnds (by decide)
    subst hExtent
    exact ⟨List.append_cancel_right h, rfl⟩
  · rintro ⟨rfl, rfl⟩
    rfl

theorem append_fillEnding_inj {name name' : Text} {i j : Nat} :
    name ++ "-fill-" ++ ofNat i = name' ++ "-fill-" ++ ofNat j ↔ name = name' ∧ i = j := by
  have hHyphen : ∀ n : Nat, .char '-' ∉ ofNat n := by
    intro n hMem
    have hDigit := (digitsValue_ofNat n).1 _ hMem
    revert hDigit
    decide
  constructor
  · intro h
    have hSplit : (name ++ "-fill") ++ .char '-' :: ofNat i =
        (name' ++ "-fill") ++ .char '-' :: ofNat j := by
      simpa [ofString] using h
    obtain ⟨hNames, hNumbers⟩ := append_cons_inj (hHyphen i) (hHyphen j) hSplit
    refine ⟨List.append_cancel_right hNames, ?_⟩
    rw [← (digitsValue_ofNat i).2, hNumbers, (digitsValue_ofNat j).2]
  · rintro ⟨rfl, rfl⟩
    rfl

/-! ## The nodes of a name -/

namespace Node

/-- The colour of the fill with a number, if that is solid and has one. -/
def solidFill? (i : Nat) (n : Node) : Option Color := n.content.fills[i]?.bind Paint.solid?

/-- The boxes of the nodes of a name, in the order of the walk. -/
def boxesNamed (name : Text) (document : Node) : List Box :=
  document.walk.flatMap fun n => if n.name.display = name then n.content.box?.toList else []

/-- The colours that the nodes of a name have for the fill with a number, in the order of the
walk. -/
def fillsNamed (name : Text) (i : Nat) (document : Node) : List Color :=
  document.walk.flatMap fun n => if n.name.display = name then (n.solidFill? i).toList else []

end Node

/-! ## Sizes -/

theorem spacingTokens_eq (n : Node) :
    n.spacingTokens = n.content.box?.toList.flatMap fun box =>
      [Extent.width, .height].map fun extent =>
        (n.tokenName extent.ending, .str (pixels (extent.ofBox box))) := by
  unfold Node.spacingTokens
  cases n.content.box? <;> rfl

theorem exists_mem_spacingTokens_iff {n : Node} {key : Key} :
    (∃ p ∈ n.spacingTokens, (p.1 == key) = true) ↔
      n.content.box?.isSome = true ∧
        ∃ extent : Extent, key = .text (n.name.display ++ extent.ending) := by
  have hKey : ∀ extent : Extent, (n.tokenName extent.ending == key) = true ↔
      key = .text (n.name.display ++ extent.ending) := by
    intro extent
    rw [Node.tokenName, BEq.comm, Key.beq_text_iff]
  have hEach : (∃ extent : Extent, key = .text (n.name.display ++ extent.ending)) ↔
      key = .text (n.name.display ++ Extent.width.ending) ∨
        key = .text (n.name.display ++ Extent.height.ending) := by
    constructor
    · rintro ⟨extent, h⟩
      cases extent with
      | width => exact Or.inl h
      | height => exact Or.inr h
    · rintro (h | h)
      · exact ⟨.width, h⟩
      · exact ⟨.height, h⟩
  rw [spacingTokens_eq, hEach]
  cases n.content.box? with
  | none => simp
  | some box => simp [hKey]

theorem valuesAt_spacingTokens (n : Node) (name : Text) (extent : Extent) :
    OrderedMap.valuesAt (.text (name ++ extent.ending)) n.spacingTokens =
      (if n.name.display = name then n.content.box?.toList else []).map fun box =>
        .str (pixels (extent.ofBox box)) := by
  have hName : ∀ e : Extent, (n.tokenName e.ending == .text (name ++ extent.ending)) =
      decide (n.name.display = name ∧ e = extent) := by
    intro e
    rw [Node.tokenName, Key.text_beq_text, Bool.eq_iff_iff, beq_iff_eq, decide_eq_true_iff,
      append_ending_inj]
  rw [spacingTokens_eq]
  by_cases hSame : n.name.display = name
  · cases n.content.box? with
    | none => simp [OrderedMap.valuesAt]
    | some box => cases extent <;> simp [OrderedMap.valuesAt, hName, hSame]
  · cases n.content.box? <;> simp [OrderedMap.valuesAt, hName, hSame]

theorem spacing_addStyle {tokens tokens' : DesignTokens} {e : Key × Json}
    (h : addStyle tokens e = .ok tokens') : tokens'.spacing = tokens.spacing := by
  obtain ⟨key, style⟩ := e
  obtain ⟨fields, rfl⟩ := (exists_addStyle_iff.1 ⟨tokens', h⟩).object
  rw [addStyle_obj] at h
  split at h
  · obtain ⟨k, -, h⟩ := bind_eq_ok.1 h
    cases h
    rename_i kind _
    cases kind <;> rfl
  · cases h
    rfl

theorem spacing_addNode {tokens tokens' : DesignTokens} {n : Node}
    (h : addNode tokens n = .ok tokens') :
    tokens'.spacing = tokens.spacing.insertAll n.spacingTokens := by
  obtain ⟨fills, -, h⟩ := bind_eq_ok.1 h
  obtain ⟨typography, -, h⟩ := bind_eq_ok.1 h
  cases h
  rfl

/-- Only nodes write sizes. -/
theorem spacing_designTokens {document : Node} {styles : OrderedMap Key Json}
    {tokens : DesignTokens} (h : designTokens document styles = .ok tokens) :
    tokens.spacing = .ofList (document.walk.flatMap Node.spacingTokens) := by
  obtain ⟨published, hPublished, hNodes⟩ := bind_eq_ok.1 h
  have hNode : ∀ tokens n tokens', addNode tokens n = .ok tokens' →
      tokens'.spacing = tokens.spacing.insertAll n.spacingTokens := fun _ _ _ => spacing_addNode
  have hStyle : ∀ tokens e tokens', addStyle tokens e = .ok tokens' →
      tokens'.spacing = tokens.spacing.insertAll [] := fun _ _ _ => spacing_addStyle
  have hNothing : styles.entries.flatMap (fun _ => ([] : List (Key × Json))) = [] :=
    List.flatMap_eq_nil_iff.2 fun _ _ => rfl
  rw [view_foldlM DesignTokens.spacing hNode hNodes,
    view_foldlM DesignTokens.spacing hStyle hPublished, hNothing]
  rfl

/-! ## Fills -/

theorem filterMap_zipIdx {α β : Type} (f : α → Option β) (l : List α) (start i : Nat) :
    ((l.zipIdx start).filterMap fun (a, j) => if j = start + i then f a else none) =
      (l[i]?.bind f).toList := by
  induction l generalizing start i with
  | nil => rfl
  | cons a l ih =>
    rw [List.zipIdx_cons]
    cases i with
    | zero =>
      have hRest : ((l.zipIdx (start + 1)).filterMap fun (b, j) =>
          if j = start + 0 then f b else none) = [] := by
        refine List.filterMap_eq_nil_iff.2 fun (b, j) hMem => ?_
        have hLater := (List.mem_zipIdx hMem).1
        exact if_neg (by omega)
      rw [List.filterMap_cons, hRest]
      cases hFirst : f a <;> simp [hFirst]
    | succ i =>
      have hFirst : start ≠ start + (i + 1) := by omega
      have hShift : start + (i + 1) = start + 1 + i := by omega
      rw [List.filterMap_cons_none (by simp), hShift, ih (start + 1) i, List.getElem?_cons_succ]

theorem fillsAt_fillEnding (n : Node) (name : Text) (i : Nat) :
    n.fillsAt (name ++ "-fill-" ++ ofNat i) =
      (if n.name.display = name then (n.solidFill? i).toList else []).filterMap fun color =>
        color.hexText.toOption := by
  have hAt := filterMap_zipIdx (fun paint : Paint => paint.solid?.bind fun color =>
    color.hexText.toOption) n.content.fills 0 i
  simp only [Nat.zero_add] at hAt
  simp only [Node.fillsAt, append_fillEnding_inj, Node.solidFill?]
  by_cases hSame : n.name.display = name
  · simp only [hSame, true_and, if_true, hAt]
    cases n.content.fills[i]? with
    | none => rfl
    | some paint =>
      cases hSolid : paint.solid? with
      | none => simp [hSolid]
      | some color => cases hHex : color.hexText.toOption <;> simp [hSolid, hHex]
  · simp [hSame]

theorem Node.HasTokens.exists_hexText {n : Node} (h : n.HasTokens) {i : Nat} {color : Color}
    (hColor : n.solidFill? i = some color) : ∃ hex, color.hexText = .ok hex := by
  obtain ⟨paint, hPaint, hSolid⟩ := Option.bind_eq_some_iff.1 hColor
  exact Color.exists_hex_iff.2 (h.fills paint (List.mem_of_getElem? hPaint) color hSolid)

/-- A node writes under the name of a fill just where it has the name and that fill is solid. -/
theorem exists_mem_fills_iff {n : Node} (h : n.HasTokens) (name : Text) (i : Nat) :
    (∃ t ∈ n.tokensOf .fill, (t.1 == .text (name ++ "-fill-" ++ ofNat i)) = true) ↔
      n.name.display = name ∧ (n.solidFill? i).isSome = true := by
  have hValues : (∃ t ∈ n.tokensOf .fill, (t.1 == .text (name ++ "-fill-" ++ ofNat i)) = true) ↔
      OrderedMap.valuesAt (.text (name ++ "-fill-" ++ ofNat i)) (n.tokensOf .fill) ≠ [] := by
    simp [OrderedMap.valuesAt]
  rw [hValues, valuesAt_tokensOf .fill _ h]
  dsimp only
  rw [fillsAt_fillEnding]
  by_cases hSame : n.name.display = name
  · cases hColor : n.solidFill? i with
    | none => simp
    | some color =>
      obtain ⟨hex, hHex⟩ := h.exists_hexText hColor
      have hText : color.hexText.toOption = some hex := by
        rw [hHex]
        rfl
      simp [hSame, hText]
  · simp [hSame]

/-- The last size under the name of a size is that of the last box of the name. -/
theorem getLast?_sizesNamed (document : Node) (name : Text) (extent : Extent) :
    (OrderedMap.valuesAt (.text (name ++ extent.ending))
        (document.walk.flatMap Node.spacingTokens)).getLast? =
      (document.boxesNamed name).getLast?.map fun box => .str (pixels (extent.ofBox box)) := by
  rw [OrderedMap.valuesAt_flatMap, Node.boxesNamed, ← List.getLast?_map, List.map_flatMap]
  simp only [valuesAt_spacingTokens]

/-- The last colour under the name of a fill is that of the last fill of the name, if nodes have
their tokens. -/
theorem getLast?_fillsNamed {document : Node} (hTokens : ∀ n ∈ document.walk, n.HasTokens)
    {name : Text} {i : Nat} {color : Color} {hex : Text}
    (hLast : (document.fillsNamed name i).getLast? = some color) (hHex : color.hexText = .ok hex) :
    (OrderedMap.valuesAt (.text (name ++ "-fill-" ++ ofNat i))
        (document.walk.flatMap (·.tokensOf .fill))).getLast? = some (.str hex) := by
  have hEach := List.map_congr_left fun n hn =>
    (valuesAt_tokensOf .fill (name ++ "-fill-" ++ ofNat i) (hTokens n hn)).trans
      (congrArg (List.map Json.str) (fillsAt_fillEnding n name i))
  obtain ⟨front, hFront⟩ := List.getLast?_eq_some_iff.1 hLast
  rw [OrderedMap.valuesAt_flatMap, List.flatMap_def, hEach, ← List.flatMap_def, ← List.map_flatMap,
    ← List.filterMap_flatMap, ← Node.fillsNamed, hFront, List.filterMap_append, List.map_append,
    List.filterMap_cons_some (by rw [hHex]; rfl)]
  simp

/-! ## What is found under a name -/

/-- A style whose name is an array. -/
def arrayNamedStyle : Key × Json :=
  (.text "S:1", .obj [("styleType", .str "FILL"), ("name", .arr [])])

def Color.black : Color := ⟨.zero, .zero, .zero, .one⟩

def Color.white : Color := ⟨.one, .one, .one, .one⟩

/-- A frame with a box of one pixel, filled in the given colours. -/
def filledFrame (name : Text) (colors : List Color) (children : List Node) : Node :=
  let fills := colors.map fun color => ⟨.str "SOLID", some color, .bool true⟩
  .mk (.str []) (.str name) .frame
    (.container ⟨fills, [], none, some ⟨.zero, .zero, .one, .one⟩, none⟩ none) children

/-- With a style that cannot be recorded there are no tokens, whatever the nodes are. -/
theorem not_exists_tokens_named_nodes :
    ¬ ∀ (document : Node) (styles : OrderedMap Key Json),
      (∀ n ∈ document.walk, ∃ own, n.name = .str own) →
        ∃ tokens, designTokens document styles = .ok tokens ∧
          ∀ n ∈ document.walk, ∀ own, n.name = .str own → n.content.box?.isSome = true →
            (tokens.spacing.get? (.text (own ++ "-width"))).isSome = true := by
  intro h
  obtain ⟨tokens, hTokens, -⟩ := h (filledFrame "A" [] []) (.ofList [arrayNamedStyle]) (by
    intro n hn
    rw [List.mem_singleton.1 hn]
    exact ⟨_, rfl⟩)
  cases hTokens

/-- Where the names of the nodes are texts, tokens are found unless a style cannot be recorded or a
solid fill is out of bounds. There is a size under a key just where the key is the name of a node
with a box and an ending, and the last box of that name is the one that is listed. Under the name of
a fill there is the last colour that a node of the name has there, whatever is published. -/
theorem designTokens_named_nodes (document : Node) (styles : OrderedMap Key Json)
    (hNames : ∀ n ∈ document.walk, ∃ own, n.name = .str own) :
    ((∃ tokens, designTokens document styles = .ok tokens) ↔
      (∀ e ∈ styles.entries, IsRecordable e) ∧
        ∀ n ∈ document.walk, ∀ p ∈ n.content.fills, ∀ color ∈ p.solid?, color.IsBounded) ∧
      ∀ tokens, designTokens document styles = .ok tokens →
        (∀ key, (tokens.spacing.get? key).isSome = true ↔
          ∃ n ∈ document.walk, n.content.box?.isSome = true ∧
            ∃ own extent, n.name = .str own ∧ key = .text (own ++ Extent.ending extent)) ∧
        (∀ name box, (document.boxesNamed name).getLast? = some box → ∀ extent : Extent,
          tokens.spacing.get? (.text (name ++ extent.ending)) =
            some (.str (pixels (extent.ofBox box)))) ∧
        ∀ name i color, (document.fillsNamed name i).getLast? = some color →
          ∃ hex, color.hexText = .ok hex ∧
            tokens.colors.get? (.text (name ++ "-fill-" ++ ofNat i)) = some (.str hex) := by
  refine ⟨?_, fun tokens hTokens => ⟨fun key => ?_, fun name box hLast extent => ?_,
    fun name i color hLast => ?_⟩⟩
  · rw [exists_tokens_iff]
    refine and_congr_right fun _ => forall₂_congr fun n hn => ?_
    obtain ⟨own, hOwn⟩ := hNames n hn
    refine ⟨fun h => h.fills, fun h => ⟨h, fun _ => ?_⟩⟩
    rw [hOwn]
    rfl
  · rw [spacing_designTokens hTokens, OrderedMap.isSome_get?_ofList]
    simp only [List.mem_flatMap]
    constructor
    · rintro ⟨p, ⟨n, hn, hp⟩, hKey⟩
      obtain ⟨own, hOwn⟩ := hNames n hn
      obtain ⟨hBox, extent, rfl⟩ := exists_mem_spacingTokens_iff.1 ⟨p, hp, hKey⟩
      exact ⟨n, hn, hBox, own, extent, hOwn, by rw [hOwn, display]⟩
    · rintro ⟨n, hn, hBox, own, extent, hOwn, rfl⟩
      obtain ⟨p, hp, hKey⟩ :=
        exists_mem_spacingTokens_iff.2 ⟨hBox, extent, by rw [hOwn, display]⟩
      exact ⟨p, ⟨n, hn, hp⟩, hKey⟩
  · rw [spacing_designTokens hTokens, OrderedMap.ofList, OrderedMap.get?_insertAll,
      getLast?_sizesNamed, hLast]
    rfl
  · have hNodes := ((exists_tokens_iff document styles).1 ⟨tokens, hTokens⟩).2
    obtain ⟨n, hn, hMem⟩ := List.mem_flatMap.1 (List.mem_of_getLast? hLast)
    have hColor : n.solidFill? i = some color := by
      split at hMem
      · exact Option.mem_toList.1 hMem
      · cases hMem
    obtain ⟨hex, hHex⟩ := (hNodes n hn).exists_hexText hColor
    have hGroup : tokens.colors = _ := group_designTokens .fill hTokens
    rw [hGroup, OrderedMap.get?_insertAll, getLast?_fillsNamed hNodes hLast hHex]
    exact ⟨hex, hHex, rfl⟩

/-- A style that has the name of a fill. -/
def fillNamedStyle : Key × Json :=
  (.text "S:1", .obj [("styleType", .str "FILL"), ("name", .str "A-fill-0")])

/-- A black frame, in which one has a name with an ending and the other is white and has the name of
the black one. -/
def nestedFrames : Node :=
  filledFrame "A" [.black] [filledFrame "A-width" [.black] [], filledFrame "A" [.white] []]

theorem designTokens_named_nestedFrames :
    ∃ tokens, designTokens nestedFrames (.ofList [fillNamedStyle]) = .ok tokens ∧
      tokens.spacing.get? (.text "A-width-width") = some (.str "1px") ∧
      tokens.colors.get? (.text "A-fill-0") = some (.str "#ffffff") := by
  have hNames : ∀ n ∈ nestedFrames.walk, ∃ own, n.name = .str own := by
    intro n hn
    have hOwn : n.name ∈ nestedFrames.walk.map Node.name := List.mem_map_of_mem hn
    have hList : nestedFrames.walk.map Node.name = [.str "A", .str "A-width", .str "A"] := rfl
    rw [hList] at hOwn
    simp only [List.mem_cons, List.not_mem_nil, or_false] at hOwn
    rcases hOwn with h | h | h <;> exact ⟨_, h⟩
  have hRun : (designTokens nestedFrames (.ofList [fillNamedStyle])).toOption.isSome = true := by
    decide +kernel
  obtain ⟨tokens, hSome⟩ := Option.isSome_iff_exists.1 hRun
  have hTokens := eq_ok_of_toOption hSome
  obtain ⟨-, hFound⟩ := designTokens_named_nodes nestedFrames (.ofList [fillNamedStyle]) hNames
  obtain ⟨-, hSizes, hFills⟩ := hFound tokens hTokens
  refine ⟨tokens, hTokens, ?_, ?_⟩
  · have hSize : pixels .one = "1px" := by decide +kernel
    have hOwn := hSizes "A-width" ⟨.zero, .zero, .one, .one⟩ rfl .width
    rwa [Extent.ofBox, hSize] at hOwn
  · obtain ⟨hex, hHex, hColor⟩ := hFills "A" 0 .white rfl
    have hWhite : Color.white.hexText.toOption = some "#ffffff" := by
      decide +kernel
    rw [hHex] at hWhite
    cases hWhite
    exact hColor

end Design

end StyleScaffold
