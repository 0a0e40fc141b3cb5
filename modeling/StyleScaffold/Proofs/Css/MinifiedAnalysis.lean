import StyleScaffold.Proofs.Css.Color
import StyleScaffold.Proofs.OrderedMap
import StyleScaffold.Proofs.Repetition
import StyleScaffold.Proofs.Text.Plain

/-!
# The analysis of a minified stylesheet

A custom property, a media query, a key-frame rule and a colour are found in the minified stylesheet
exactly where they are in the stylesheet. The blanks in them are collapsed there, so colours that
differ in their blanks only become one colour.

* `KeepsFindings.customProperty?_eq`, `KeepsFindings.mediaQuery?_eq`,
  `KeepsFindings.keyframes?_eq`: what becomes of a finding under one rewriting.
* `allMatches_minify`: what becomes of the findings under all of them.
* `analysis_minify`: what the analysis finds.
-/

namespace StyleScaffold.Css

open Text

variable {α : Type} {T : Text → Text} {s : Text}

/-! ## Recognisers that start with a mark -/

section Mark

variable {mark : Text} {body : Text → Option (α × Text)}

theorem isScanner_of_strip (hMark : ∀ c ∈ mark, isCore c = true) (hne : mark ≠ [])
    (hBody : ∀ t a rest, body t = some (a, rest) → rest <:+ t) :
    IsScanner fun s => (strip? mark s).bind body := by
  intro s a rest h
  obtain ⟨t, hStrip, ht⟩ := Option.bind_eq_some_iff.1 h
  obtain ⟨m, rfl⟩ := hBody t a rest ht
  obtain ⟨c, marks, rfl⟩ := List.exists_cons_of_ne_nil hne
  refine ⟨c, marks ++ m, hMark c List.mem_cons_self, ?_⟩
  rw [strip?_eq_some_iff.1 hStrip]
  simp

theorem closing_not_mem (hMark : ∀ c ∈ mark, isCore c = true) : .char '}' ∉ mark := by
  intro hMem
  exact absurd (hMark _ hMem) (by decide)

theorem KeepsFindings.strip_bind (h : KeepsFindings T) (hMark : ∀ c ∈ mark, isCore c = true)
    {g : α → α} (hBody : ∀ t, EndsClosed t → body (T t) = (body t).map (Prod.map g T))
    (hs : EndsClosed s) :
    (strip? mark (T s)).bind body = ((strip? mark s).bind body).map (Prod.map g T) := by
  rw [h.strip?_rewriting hMark]
  cases hStrip : strip? mark s with
  | none => rfl
  | some t =>
    rw [strip?_eq_some_iff] at hStrip
    rw [hStrip] at hs
    exact hBody t (hs.of_append_of_not_mem (closing_not_mem hMark))

end Mark

/-! ## Key-frame animations -/

theorem isScanner_keyframes? : IsScanner keyframes? := by
  apply isScanner_of_strip (by decide) (by decide)
  intro t a rest h
  obtain ⟨⟨blanks, u⟩, hBlank, hName⟩ := Option.bind_eq_some_iff.1 h
  rw [append_of_run? hBlank, append_of_run? hName, ← List.append_assoc]
  exact List.suffix_append _ rest

theorem KeepsFindings.keyframes?_eq (h : KeepsFindings T) (hs : EndsClosed s) :
    keyframes? (T s) = (keyframes? s).map (Prod.map id T) := by
  refine h.strip_bind (by decide) ?_ hs
  intro t ht
  rcases h.run?_loose isLoose_isBlank ht with ⟨hHere, hThere⟩ | ⟨u, v, rest, hHere, hThere, -⟩
  · rw [hHere, hThere]
    rfl
  · rw [hHere, hThere]
    exact h.run?_rewriting (fun _ => isCore_of_isNameChar) rest

/-! ## Custom properties -/

/-- The characters of a custom property's value. -/
def isValueChar (c : CodePoint) : Bool := c ≠ ';' && c ≠ '}'

theorem isLoose_isValueChar : IsLoose isValueChar where
  blank := by
    intro c hc
    rw [isValueChar, Bool.and_eq_true, decide_eq_true_eq, decide_eq_true_eq]
    constructor <;> rintro rfl <;> exact absurd hc (by decide)
  same := by decide

/-- A custom property behind its dashes. -/
def propertyBody? (s : Text) : Option ((Text × Text) × Text) := do
  let (name, rest) ← run? isNameChar s
  let rest ← strip? ":" (trimLeft rest)
  let (value, rest) ← run? isValueChar rest
  some ((name, trim value), rest)

theorem customProperty?_eq (s : Text) : customProperty? s = (strip? "--" s).bind propertyBody? := rfl

theorem propertyBody?_eq_some {d : Text × Text} {rest : Text}
    (h : propertyBody? s = some (d, rest)) :
    ∃ blanks value, allBlank blanks = true ∧ (∀ c ∈ value, isValueChar c = true) ∧
      s = d.1 ++ blanks ++ .char ':' :: value ++ rest ∧ d.2 = trim value := by
  obtain ⟨⟨name, t⟩, hName, h⟩ := Option.bind_eq_some_iff.1 h
  obtain ⟨u, hColon, h⟩ := Option.bind_eq_some_iff.1 h
  obtain ⟨⟨value, w⟩, hValue, h⟩ := Option.bind_eq_some_iff.1 h
  cases h
  obtain ⟨blanks, hBlanks, ht⟩ := exists_trimLeft t
  refine ⟨blanks, value, hBlanks, forall_of_run? hValue, ?_, rfl⟩
  rw [append_of_run? hName, ht, strip?_eq_some_iff.1 hColon, append_of_run? hValue]
  simp [ofString]

theorem isScanner_customProperty? : IsScanner customProperty? := by
  apply isScanner_of_strip (by decide) (by decide)
  intro t d rest h
  obtain ⟨blanks, value, -, -, hEq, -⟩ := propertyBody?_eq_some h
  rw [hEq]
  exact List.suffix_append _ rest

theorem KeepsFindings.propertyBody?_eq (h : KeepsFindings T) (hs : EndsClosed s) :
    propertyBody? (T s) = (propertyBody? s).map (Prod.map (Prod.map id T) T) := by
  have hColon : ∀ c ∈ (":" : Text), isCore c = true := by decide
  unfold propertyBody?
  rw [h.run?_rewriting fun _ => isCore_of_isNameChar]
  cases hName : run? isNameChar s with
  | none => rfl
  | some found =>
    obtain ⟨name, t⟩ := found
    have hCore : ∀ c ∈ name, isCore c = true :=
      fun c hc => isCore_of_isNameChar (forall_of_run? hName c hc)
    have hBehind : EndsClosed (trimLeft t) := by
      obtain ⟨blanks, hBlanks, ht⟩ := exists_trimLeft t
      rw [append_of_run? hName, ht, ← List.append_assoc] at hs
      apply hs.of_append_of_not_mem
      rw [List.mem_append, not_or]
      exact ⟨closing_not_mem hCore, not_mem_of_allBlank hBlanks (by decide)⟩
    show (strip? ":" (trimLeft (T t))).bind _ = ((strip? ":" (trimLeft t)).bind _).map _
    rw [h.trimLeft_eq]
    refine h.strip_bind hColon ?_ hBehind
    intro u hu
    rcases h.run?_loose isLoose_isValueChar hu with
      ⟨hHere, hThere⟩ | ⟨value, value', rest, hHere, hThere, hValue⟩
    · rw [hHere, hThere]
      rfl
    · rw [hHere, hThere]
      show some ((name, trim value'), T rest) = some ((name, T (trim value)), T rest)
      rw [hValue]

theorem KeepsFindings.customProperty?_eq (h : KeepsFindings T) (hs : EndsClosed s) :
    customProperty? (T s) = (customProperty? s).map (Prod.map (Prod.map id T) T) :=
  h.strip_bind (by decide) (fun _ ht => h.propertyBody?_eq ht) hs

/-! ## Media queries -/

theorem isLoose_query : IsLoose (· ≠ .char '{') where
  blank := by
    intro c hc
    rw [decide_eq_true_eq]
    rintro rfl
    exact absurd hc (by decide)
  same := by decide

theorem isScanner_mediaQuery? : IsScanner mediaQuery? := by
  apply isScanner_of_strip (by decide) (by decide)
  intro t q rest h
  obtain ⟨⟨query, u⟩, hQuery, h⟩ := Option.bind_eq_some_iff.1 h
  cases h
  rw [append_of_run? hQuery]
  exact List.suffix_append _ rest

theorem KeepsFindings.mediaQuery?_eq (h : KeepsFindings T) (hs : EndsClosed s) :
    mediaQuery? (T s) = (mediaQuery? s).map (Prod.map T T) := by
  refine h.strip_bind (by decide) ?_ hs
  intro t ht
  rcases h.run?_loose isLoose_query ht with
    ⟨hHere, hThere⟩ | ⟨query, query', rest, hHere, hThere, hQuery⟩
  · rw [hHere, hThere]
    rfl
  · rw [hHere, hThere]
    show some (trim query', T rest) = some (T (trim query), T rest)
    rw [hQuery]

/-! ## The minified text -/

variable {sheet : Text}

theorem minify_eq (h : hasComment sheet = false) :
    minify sheet = dropLastSemicolons (collapse (.char ' ') (trim sheet)) := by
  rw [minify, withoutComments_eq_self h, trim_dropLastSemicolons, trim_collapse (by decide)]

theorem IsCompact.minified {m : Text} (hm : IsCompact m) :
    dropLastSemicolons (collapse (.char ' ') (trimRight m)) = collapse (.char ' ') m := by
  rw [trimRight_eq_self hm.last]
  apply dropLastSemicolons_of_not_mem
  rw [mem_collapse_iff (by decide) (by decide)]
  exact hm.noSemicolon

/-- Each rewriting of a finding is seen in what the scan gives. -/
theorem allMatches_minify {r : Text → Option (α × Text)} (hScan : IsScanner r)
    {g : (Text → Text) → α → α}
    (hAt : ∀ {T}, KeepsFindings T → ∀ s, EndsClosed s → r (T s) = (r s).map (Prod.map (g T) T))
    (hComment : hasComment sheet = false) (hEnd : EndsClosed sheet) :
    allMatches r (minify sheet) = (allMatches r sheet).map fun a =>
      g dropLastSemicolons (g (collapse (.char ' ')) (g trimRight a)) := by
  have hSpace : isBlank (.char ' ') = true := by decide
  obtain ⟨w, hw, hSheet⟩ := exists_trimLeft sheet
  have hLeft : EndsClosed (trimLeft sheet) := by
    rw [hSheet] at hEnd
    exact hEnd.of_append_of_not_mem (not_mem_of_allBlank hw (by decide))
  have hBoth : EndsClosed (trim sheet) := hLeft.trimRight
  have hGap : ∀ d ∈ w, isGapChar d = true :=
    fun d hd => isGapChar_iff.2 (Or.inl (allBlank_iff.1 hw d hd))
  have hTrim := keepsFindings_trimRight
  have hCollapse := keepsFindings_collapse hSpace
  have hDrop := keepsFindings_dropLastSemicolons
  calc
    allMatches r (minify sheet) =
        allMatches r (dropLastSemicolons (collapse (.char ' ') (trim sheet))) := by
      rw [minify_eq hComment]
    _ = (allMatches r (collapse (.char ' ') (trim sheet))).map (g dropLastSemicolons) :=
      hDrop.allMatches_eq hScan (hAt hDrop) (Or.inl (hBoth.collapse hSpace))
    _ = ((allMatches r (trim sheet)).map (g (collapse (.char ' ')))).map (g dropLastSemicolons) := by
      rw [hCollapse.allMatches_eq hScan (hAt hCollapse) (Or.inl hBoth)]
    _ = (((allMatches r (trimLeft sheet)).map (g trimRight)).map (g (collapse (.char ' ')))).map
          (g dropLastSemicolons) := by
      rw [trim, hTrim.allMatches_eq hScan (hAt hTrim) (Or.inl hLeft)]
    _ = (allMatches r sheet).map fun a =>
          g dropLastSemicolons (g (collapse (.char ' ')) (g trimRight a)) := by
      rw [List.map_map, List.map_map, ← hScan.allMatches_gap hGap, ← hSheet]
      rfl

theorem animations_minify (hComment : hasComment sheet = false) (hEnd : EndsClosed sheet) :
    animations (minify sheet) = animations sheet := by
  have hAt : ∀ {T}, KeepsFindings T → ∀ s, EndsClosed s →
      keyframes? (T s) = (keyframes? s).map (Prod.map id T) := fun hT _ hs => hT.keyframes?_eq hs
  calc
    animations (minify sheet) = (allMatches keyframes? sheet).map fun name => id (id (id name)) :=
      allMatches_minify (g := fun _ => id) isScanner_keyframes? hAt hComment hEnd
    _ = animations sheet := List.map_id _

theorem isCompact_of_customProperty? {d : Text × Text} {rest : Text}
    (h : customProperty? s = some (d, rest)) : IsCompact d.2 := by
  obtain ⟨t, -, h⟩ := Option.bind_eq_some_iff.1 h
  obtain ⟨blanks, value, -, hValue, -, hTrim⟩ := propertyBody?_eq_some h
  rw [hTrim]
  refine ⟨(trimmed_trim value).last, ?_⟩
  intro hMem
  exact absurd (hValue _ ((trim_sublist value).subset hMem)) (by decide)

theorem customProperties_minify (hComment : hasComment sheet = false) (hEnd : EndsClosed sheet) :
    (customProperties (minify sheet)).entries =
      (customProperties sheet).entries.map (Prod.map id (collapse (.char ' '))) := by
  have hAt : ∀ {T}, KeepsFindings T → ∀ s, EndsClosed s →
      customProperty? (T s) = (customProperty? s).map (Prod.map (Prod.map id T) T) :=
    fun hT _ hs => hT.customProperty?_eq hs
  have hMap : allMatches customProperty? (minify sheet) =
      (allMatches customProperty? sheet).map (Prod.map id (collapse (.char ' '))) := by
    rw [allMatches_minify (g := fun T => Prod.map id T) isScanner_customProperty? hAt hComment hEnd]
    apply List.map_congr_left
    intro d hd
    obtain ⟨front, back, rest, -, hBack⟩ := isScanner_customProperty?.exists_of_mem_allMatches hd
    exact congrArg (d.1, ·) (isCompact_of_customProperty? hBack).minified
  rw [customProperties, hMap, OrderedMap.entries_ofList_map, customProperties]

theorem exists_of_mediaQuery? {q rest : Text} (h : mediaQuery? s = some (q, rest)) :
    trim q = q ∧ ∃ u v, s = u ++ q ++ v := by
  obtain ⟨t, hMark, h⟩ := Option.bind_eq_some_iff.1 h
  obtain ⟨⟨query, w⟩, hQuery, h⟩ := Option.bind_eq_some_iff.1 h
  cases h
  obtain ⟨u, v, -, -, hTrim⟩ := exists_trim query
  refine ⟨(trimmed_trim query).trim_eq, "@media" ++ u, v ++ rest, ?_⟩
  calc
    s = "@media" ++ (query ++ rest) := by
      rw [strip?_eq_some_iff.1 hMark, append_of_run? hQuery]
    _ = "@media" ++ (u ++ trim query ++ v ++ rest) := by rw [← hTrim]
    _ = "@media" ++ u ++ trim query ++ (v ++ rest) := by simp

theorem mediaQueries_minify (hComment : hasComment sheet = false) (hEnd : EndsClosed sheet) :
    mediaQueries (minify sheet) = (mediaQueries sheet).map minify := by
  have hAt : ∀ {T}, KeepsFindings T → ∀ s, EndsClosed s →
      mediaQuery? (T s) = (mediaQuery? s).map (Prod.map T T) := fun hT _ hs => hT.mediaQuery?_eq hs
  rw [mediaQueries, allMatches_minify (g := fun T => T) isScanner_mediaQuery? hAt hComment hEnd,
    mediaQueries]
  apply List.map_congr_left
  intro q hq
  obtain ⟨front, back, rest, rfl, hBack⟩ := isScanner_mediaQuery?.exists_of_mem_allMatches hq
  obtain ⟨hTrim, u, v, rfl⟩ := exists_of_mediaQuery? hBack
  have hFree : hasComment q = false := by
    apply hasComment_of_append (u := front ++ u) (v := v)
    rw [← hComment]
    simp
  rw [minify_eq hFree, hTrim, trimRight_eq_self]
  rw [← hTrim]
  exact (trimmed_trim q).last

/-! ## Numbered colours -/

/-- The name of the colour with a number. -/
def colorKey (i : Nat) : Text := "color-" ++ ofNat i

theorem numberColors_eq (first : Nat) (colors : List Text) :
    numberColors first colors = (colors.zipIdx first).map fun (color, i) => (colorKey i, color) := by
  induction colors generalizing first with
  | nil => rfl
  | cons color rest ih => rw [numberColors, ih]; rfl

theorem map_fst_numberColors (first : Nat) (colors : List Text) :
    (numberColors first colors).map Prod.fst =
      (List.range' first colors.length).map colorKey := by
  rw [numberColors_eq, List.map_map, ← List.zipIdx_map_snd, List.map_map]
  rfl

theorem distinctKeys_numberColors (first : Nat) (colors : List Text) :
    DistinctKeys ((numberColors first colors).map Prod.fst) := by
  rw [map_fst_numberColors, DistinctKeys, List.pairwise_map]
  refine List.Pairwise.imp ?_ List.nodup_range'
  intro i j hNe
  rw [beq_eq_false_iff_ne]
  intro hEq
  exact hNe (ofNat_injective (List.append_cancel_left hEq))

theorem entries_colorPalette (sheet : Text) :
    (colorPalette sheet).entries = numberColors 1 (colorLiterals sheet) :=
  OrderedMap.entries_insertAll (distinctKeys_numberColors 1 (colorLiterals sheet))

theorem values_of_entries_eq {palette : OrderedMap Text Text} {first : Nat} {colors : List Text}
    (h : palette.entries = numberColors first colors) : palette.values = colors := by
  rw [OrderedMap.values, h, numberColors_eq, List.map_map]
  exact List.zipIdx_map_fst first colors

theorem size_of_entries_eq {palette : OrderedMap Text Text} {first : Nat} {colors : List Text}
    (h : palette.entries = numberColors first colors) : palette.size = colors.length := by
  rw [OrderedMap.size, ← values_of_entries_eq h, OrderedMap.values, List.length_map]

theorem values_colorPalette (sheet : Text) : (colorPalette sheet).values = colorLiterals sheet :=
  values_of_entries_eq (entries_colorPalette sheet)

theorem colorLiterals_minify (hComment : hasComment sheet = false) (hEnd : EndsClosed sheet) :
    colorLiterals (minify sheet) =
      ((colorLiterals sheet).map (collapse (.char ' '))).eraseDups := by
  have hScan := isColorReader_color?.isScanner
  have hMap : allMatches color? (minify sheet) =
      (allMatches color? sheet).map (collapse (.char ' ')) := by
    rw [allMatches_minify (g := fun T => T) hScan (fun hT s _ => isColorReader_color?.carries hT s)
      hComment hEnd]
    apply List.map_congr_left
    intro color hColor
    obtain ⟨front, back, rest, -, hBack⟩ := hScan.exists_of_mem_allMatches hColor
    exact (isColorReader_color?.found hBack).2.1.minified
  rw [colorLiterals, hMap, colorLiterals, eraseDups_map_eraseDups]

/-- Where no comment is opened and the last character is a closing brace, the minified stylesheet has
the same animations, the same custom properties with collapsed values, the minified media queries,
and the collapsed colours, each once. -/
theorem analysis_minify (hOpening : holds "/*" sheet = false) (hEnd : EndsClosed sheet) :
    animations (minify sheet) = animations sheet ∧
      (customProperties (minify sheet)).entries =
        (customProperties sheet).entries.map (fun d => (d.1, collapse (.char ' ') d.2)) ∧
      mediaQueries (minify sheet) = (mediaQueries sheet).map minify ∧
      (colorPalette (minify sheet)).entries =
        ((((colorPalette sheet).values.map (collapse (.char ' '))).eraseDups).zipIdx 1).map
          fun (color, i) => ("color-" ++ ofNat i, color) := by
  have hComment := hasComment_of_holds hOpening
  refine ⟨animations_minify hComment hEnd, customProperties_minify hComment hEnd,
    mediaQueries_minify hComment hEnd, ?_⟩
  rw [entries_colorPalette, colorLiterals_minify hComment hEnd, numberColors_eq,
    values_colorPalette]
  rfl

/-- Two ways of writing a colour become one. -/
theorem analysis_minify_spacedColor :
    let sheet : Text := "a { color: rgb(1, 2,3); border-color: rgb(1,  2,3);}\n"
    holds "/*" sheet = false ∧ EndsClosed sheet ∧
      (colorPalette (minify sheet)).values = [("rgb(1, 2,3)" : Text)] := by
  intro sheet
  have hOpening : holds "/*" sheet = false := by decide
  have hEnd : EndsClosed sheet := by decide
  refine ⟨hOpening, hEnd, ?_⟩
  rw [OrderedMap.values, (analysis_minify hOpening hEnd).2.2.2]
  decide +kernel

end StyleScaffold.Css
