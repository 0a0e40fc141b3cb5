import StyleScaffold.Proofs.Css.MinifiedAnalysis

/-!
# The numbers of the colours

A palette can be filled in one pass over the colours that are found: a colour that is not in it yet
gets the next number after the size of the palette (`collectColor`). The number is taken from the
size and the colour is looked for among the values, so the two must go together: at each point of
the pass, the entries are the first places of the colours so far, numbered from one on
(`entries_collectColors`). Therefore a new number is a new key, and no entry is written over
(`collectColors_isPrefix`).

* `colorPalette_eq_collectColors`: the palette of a stylesheet is the one that is filled so.
* `colorPalette_numbering`: its keys, its values and their order.
-/

namespace StyleScaffold.Css

open Text

/-- The palette after one more colour is found. -/
def collectColor (palette : OrderedMap Text Text) (color : Text) : OrderedMap Text Text :=
  if palette.values.contains color then palette
  else palette.insert (colorKey (palette.size + 1)) color

/-- The palette after the colours are found in order. -/
def collectColors (colors : List Text) : OrderedMap Text Text := colors.foldl collectColor .empty

theorem collectColors_concat (colors : List Text) (color : Text) :
    collectColors (colors ++ [color]) = collectColor (collectColors colors) color :=
  List.foldl_append

/-! ## One more colour -/

variable {palette : OrderedMap Text Text} {colors : List Text}

theorem collectColor_of_mem {color : Text} (h : color ∈ palette.values) :
    collectColor palette color = palette := by
  rw [collectColor, if_pos (List.contains_iff_mem.2 h)]

/-- The number after the size of the palette is not in use. -/
theorem colorKey_not_mem (h : palette.entries = numberColors 1 colors) :
    colorKey (palette.size + 1) ∉ palette.keys := by
  have hSize := size_of_entries_eq h
  rw [OrderedMap.keys, h, map_fst_numberColors, hSize]
  intro hMem
  obtain ⟨i, hi, hEq⟩ := List.mem_map.1 hMem
  have hNumber : i = colors.length + 1 := ofNat_injective (List.append_cancel_left hEq)
  rw [List.mem_range'_1] at hi
  omega

/-- A new colour goes behind all others. -/
theorem entries_collectColor (h : palette.entries = numberColors 1 colors) {color : Text}
    (hNew : color ∉ palette.values) :
    (collectColor palette color).entries =
      palette.entries ++ [(colorKey (palette.size + 1), color)] := by
  rw [collectColor, if_neg (mt List.contains_iff_mem.1 hNew), OrderedMap.entries_insert]
  apply putEntry_of_new
  intro e he
  rw [beq_eq_false_iff_ne]
  rintro hEq
  exact colorKey_not_mem h (hEq ▸ List.mem_map_of_mem he)

theorem numberColors_concat (colors : List Text) (color : Text) :
    numberColors 1 (colors ++ [color]) =
      numberColors 1 colors ++ [(colorKey (colors.length + 1), color)] := by
  rw [numberColors_eq, numberColors_eq, List.zipIdx_append, List.map_append, Nat.add_comm 1]
  rfl

/-! ## The whole pass -/

/-- The colours found so far stand in the palette in the order of their first places, numbered from
one on. -/
theorem entries_collectColors (colors : List Text) :
    (collectColors colors).entries = numberColors 1 colors.eraseDups := by
  induction colors using List.reverseRecOn with
  | nil => rfl
  | append_singleton colors color ih =>
    have hValues := values_of_entries_eq ih
    rw [collectColors_concat, eraseDups_concat]
    by_cases hOld : color ∈ colors
    · have hMem : color ∈ (collectColors colors).values := by
        rwa [hValues, List.mem_eraseDups]
      rw [if_pos hOld, collectColor_of_mem hMem, ih]
    · have hNew : color ∉ (collectColors colors).values := by
        rwa [hValues, List.mem_eraseDups]
      rw [if_neg hOld, numberColors_concat, entries_collectColor ih hNew, ih, size_of_entries_eq ih]

/-- What stands in the palette stays there while the pass goes on. -/
theorem collectColors_isPrefix (front back : List Text) :
    (collectColors front).entries <+: (collectColors (front ++ back)).entries := by
  induction back using List.reverseRecOn with
  | nil => simp
  | append_singleton back color ih =>
    refine ih.trans ?_
    rw [← List.append_assoc, collectColors_concat]
    by_cases hOld : color ∈ (collectColors (front ++ back)).values
    · simp [collectColor_of_mem hOld]
    · rw [entries_collectColor (entries_collectColors _) hOld]
      exact List.prefix_append _ _

theorem colorPalette_eq_collectColors (sheet : Text) :
    colorPalette sheet = collectColors (allMatches color? sheet) := by
  apply OrderedMap.ext
  rw [entries_colorPalette, entries_collectColors]
  rfl

/-- The palette is filled in one pass over the colours of the scan. Its keys are `color-1`, `color-2`
and so on up to its size; its values are the colours of the scan without repetitions, in the order of
their first places; and what was entered for the first of the colours is never changed. -/
theorem colorPalette_numbering (sheet : Text) :
    colorPalette sheet = collectColors (allMatches color? sheet) ∧
      (colorPalette sheet).keys =
        (List.range (colorPalette sheet).size).map (fun i => "color-" ++ ofNat (i + 1)) ∧
      (colorPalette sheet).values.Nodup ∧
      (∀ color, color ∈ (colorPalette sheet).values ↔ color ∈ allMatches color? sheet) ∧
      ((colorPalette sheet).values.Pairwise fun a b =>
        (allMatches color? sheet).idxOf a < (allMatches color? sheet).idxOf b) ∧
      ∀ k, (collectColors ((allMatches color? sheet).take k)).entries <+:
        (colorPalette sheet).entries := by
  have hValues : (colorPalette sheet).values = (allMatches color? sheet).eraseDups :=
    values_colorPalette sheet
  refine ⟨colorPalette_eq_collectColors sheet, ?_, ?_, ?_, ?_, ?_⟩
  · rw [size_of_entries_eq (entries_colorPalette sheet), OrderedMap.keys, entries_colorPalette,
      map_fst_numberColors, List.range'_eq_map_range, List.map_map]
    exact List.map_congr_left fun i _ => congrArg colorKey (Nat.add_comm 1 i)
  · rw [hValues]
    exact nodup_eraseDups _
  · intro color
    rw [hValues, List.mem_eraseDups]
  · rw [hValues]
    exact pairwise_idxOf_eraseDups _
  · intro k
    rw [colorPalette_eq_collectColors]
    have hPrefix := collectColors_isPrefix ((allMatches color? sheet).take k)
      ((allMatches color? sheet).drop k)
    rwa [List.take_append_drop] at hPrefix

end StyleScaffold.Css
