import StyleScaffold.Proofs.Design.Link

/-!
# Blanks around a link

The key of the file is read from the trimmed link, the parameter for the node from the link as it
is. So blanks around a link never change the key, but the value of a parameter that runs to the
end of the link (`EndsInNode`) goes on with the blanks behind it.

Main results:

* a link with blanks around it is read as the link itself exactly when there are no blanks behind
  it, the link is refused, or it does not end in the parameter (`parse?_padding`); a link that
  ends in the parameter is a counterexample to the general statement (`not_parse?_padding`);
* otherwise the blanks are the end of the identifier that is read.
-/

namespace StyleScaffold.Design.Link

open Text

/-! ## A search up to a character -/

/-- A character of a class that has no character of the name is no part of the name. -/
theorem not_mem_nodeId (p : CodePoint → Bool) (hp : ∀ d ∈ ("node-id=" : Text), p d = false)
    {c : CodePoint} (hc : p c = true) : c ∉ ("node-id=" : Text) := by
  intro hMem
  rw [hp c hMem] at hc
  cases hc

theorem isSome_run?_append_cons (p : CodePoint → Bool) (c : CodePoint) (s t : Text) :
    (run? p (s ++ c :: t)).isSome = (run? p (s ++ [c])).isSome := by
  have hSome (u : Text) : (run? p u).isSome = u.head?.any p := by
    rw [run?_eq]
    split <;> simp [*]
  rw [hSome, hSome]
  cases s <;> rfl

/-- Whether a parameter starts in front of a character does not depend on what comes behind it. -/
theorem isSome_nodeParameter?_append_cons {c : CodePoint} (hc : c ∉ ("node-id=" : Text))
    (d : CodePoint) (s t : Text) :
    (nodeParameter? (d :: (s ++ c :: t))).isSome = (nodeParameter? (d :: (s ++ [c]))).isSome := by
  cases hd : isSeparator d with
  | false => rw [nodeParameter?_of_not_separator hd, nodeParameter?_of_not_separator hd]
  | true =>
    rw [nodeParameter?_separator hd, nodeParameter?_separator hd, strip?_append_cons hc,
      strip?_append_cons hc]
    cases strip? "node-id=" s with
    | none => rfl
    | some rest =>
      simp only [Option.map_some, Option.bind_some, Option.isSome_map]
      exact isSome_run?_append_cons isValueChar c rest t

theorem nodeParameter?_append_cons_eq_none_iff {c : CodePoint} (hc : c ∉ ("node-id=" : Text))
    (d : CodePoint) (s t : Text) :
    nodeParameter? (d :: (s ++ c :: t)) = none ↔ nodeParameter? (d :: (s ++ [c])) = none := by
  rw [← Option.not_isSome_iff_eq_none, ← Option.not_isSome_iff_eq_none,
    isSome_nodeParameter?_append_cons hc]

theorem firstMatch_nodeParameter?_append_cons {c : CodePoint} (hc : c ∉ ("node-id=" : Text))
    {lead : Text} (h : firstMatch nodeParameter? (lead ++ [c]) = none) (t : Text) :
    firstMatch nodeParameter? (lead ++ c :: t) = firstMatch nodeParameter? (c :: t) := by
  induction lead with
  | nil => rfl
  | cons d lead ih =>
    rw [List.cons_append, firstMatch] at h
    split at h
    · cases h
    · rename_i hNone
      rw [List.cons_append, firstMatch,
        (nodeParameter?_append_cons_eq_none_iff hc d lead t).2 hNone]
      exact ih h

/-! ## Links that end in the parameter -/

/-- A link that ends in the parameter for the node, which no other one precedes. -/
def EndsInNode (url value : Text) : Prop :=
  ∃ (lead : Text) (c : CodePoint), url = lead ++ c :: ("node-id=" ++ value) ∧ isSeparator c = true ∧
    (∀ d ∈ value, isValueChar d = true) ∧ firstMatch nodeParameter? (lead ++ [c]) = none

/-- The value goes on with what is written behind the link. -/
theorem EndsInNode.firstMatch_append {url value : Text} (h : EndsInNode url value) {w : Text}
    (hw : ∀ c ∈ w, isValueChar c = true) :
    firstMatch nodeParameter? (url ++ w) = if value ++ w = [] then none else some (value ++ w) := by
  obtain ⟨lead, c, rfl, hc, hValue, hFirst⟩ := h
  have hText : lead ++ c :: (("node-id=" : Text) ++ value) ++ w =
      lead ++ c :: (("node-id=" : Text) ++ (value ++ w)) := by
    simp
  have hRun : ∀ d ∈ value ++ w, isValueChar d = true := by
    rintro d hd
    rcases List.mem_append.1 hd with hd | hd
    · exact hValue d hd
    · exact hw d hd
  have hLiteral := not_mem_nodeId isSeparator (by decide) hc
  rw [hText, firstMatch_nodeParameter?_append_cons hLiteral hFirst]
  generalize value ++ w = written at hRun ⊢
  cases written with
  | nil =>
    rw [isSeparator, Bool.or_eq_true, decide_eq_true_eq, decide_eq_true_eq] at hc
    rcases hc with rfl | rfl <;> decide
  | cons d written =>
    rw [if_neg (List.cons_ne_nil d written)]
    have hEnd : ∀ d ∈ ([] : Text).head?, isValueChar d = false := by
      intro d hd
      cases hd
    have hHere := nodeParameter?_written hc (List.cons_ne_nil d written) hRun hEnd
    rw [List.append_nil] at hHere
    exact firstMatch_of_match hHere

theorem EndsInNode.cons {url value : Text} (h : EndsInNode url value) {c : CodePoint}
    (hNone : nodeParameter? (c :: url) = none) : EndsInNode (c :: url) value := by
  obtain ⟨lead, d, rfl, hd, hValue, hFirst⟩ := h
  have hLiteral := not_mem_nodeId isSeparator (by decide) hd
  refine ⟨c :: lead, d, rfl, hd, hValue, ?_⟩
  rw [List.cons_append, firstMatch,
    (nodeParameter?_append_cons_eq_none_iff hLiteral c lead _).1 hNone]
  exact hFirst

/-! ## Blanks behind a link -/

theorem isValueChar_of_isBlank {c : CodePoint} (h : isBlank c = true) : isValueChar c = true := by
  rw [isValueChar, Bool.and_eq_true, decide_eq_true_eq, decide_eq_true_eq]
  constructor <;>
  · rintro rfl
    exact absurd h (by decide)

theorem isSeparator_of_isBlank {c : CodePoint} (h : isBlank c = true) : isSeparator c = false := by
  rw [isSeparator, Bool.or_eq_false_iff, decide_eq_false_iff_not, decide_eq_false_iff_not]
  constructor <;>
  · rintro rfl
    exact absurd h (by decide)

theorem hexValue?_of_isBlank {c : CodePoint} (h : isBlank c = true) : hexValue? c = none := by
  rw [Option.eq_none_iff_forall_ne_some]
  intro v hv
  rw [hexValue?_eq_some_iff] at hv
  simp only [isBlank, Bool.or_eq_true, Bool.and_eq_true, decide_eq_true_eq, beq_iff_eq] at h
  omega

/-- A blank behind a parameter makes no difference to it, except at the end of its value. -/
theorem nodeParameter?_append_blank {b : CodePoint} (hb : isBlank b = true) (c : CodePoint)
    (s w : Text) :
    (∃ value : Text, isSeparator c = true ∧ s = "node-id=" ++ value ∧
        ∀ d ∈ value, isValueChar d = true) ∨
      nodeParameter? (c :: (s ++ b :: w)) = nodeParameter? (c :: s) := by
  cases hc : isSeparator c with
  | false =>
    right
    rw [nodeParameter?_of_not_separator hc, nodeParameter?_of_not_separator hc]
  | true =>
    rw [nodeParameter?_separator hc, nodeParameter?_separator hc,
      strip?_append_cons (not_mem_nodeId isBlank (by decide) hb)]
    cases hStrip : strip? "node-id=" s with
    | none =>
      right
      rfl
    | some rest =>
      rw [strip?_eq_some_iff] at hStrip
      by_cases hAll : rest.all isValueChar = true
      · exact .inl ⟨rest, rfl, hStrip, List.all_eq_true.1 hAll⟩
      · right
        simp only [List.all_eq_true, Classical.not_forall, Bool.not_eq_true] at hAll
        obtain ⟨d, hMem, hd⟩ := hAll
        obtain ⟨front, back, rfl⟩ := List.append_of_mem hMem
        simp only [Option.map_some, Option.bind_some, List.append_assoc, List.cons_append,
          run?_append_cons hd, Option.map_map]
        rfl

theorem firstMatch_nodeParameter?_append_blanks {w : Text} (hw : allBlank w = true) (url : Text) :
    (∃ value, EndsInNode url value) ∨
      firstMatch nodeParameter? (url ++ w) = firstMatch nodeParameter? url := by
  have hBlanks : ∀ c ∈ w, isSeparator c = false := fun c hc =>
    isSeparator_of_isBlank (allBlank_iff.1 hw c hc)
  cases w with
  | nil => exact .inr (by rw [List.append_nil])
  | cons b w =>
    have hb := allBlank_iff.1 hw b List.mem_cons_self
    induction url with
    | nil =>
      right
      have hPass := firstMatch_nodeParameter?_append hBlanks []
      rwa [List.append_nil] at hPass
    | cons c url ih =>
      rcases nodeParameter?_append_blank hb c url w with ⟨value, hc, rfl, hValue⟩ | hSame
      · refine .inl ⟨value, [], c, rfl, hc, hValue, ?_⟩
        rw [List.nil_append, firstMatch, nodeParameter?_separator hc]
        rfl
      · cases hHere : nodeParameter? (c :: url) with
        | some value =>
          right
          rw [hHere] at hSame
          rw [List.cons_append, firstMatch, firstMatch, hSame, hHere]
        | none =>
          rw [hHere] at hSame
          rw [List.cons_append, firstMatch, firstMatch, hSame, hHere]
          rcases ih with ⟨value, hEnds⟩ | hRest
          · exact .inl ⟨value, hEnds.cons hHere⟩
          · exact .inr hRest

/-- Blanks are no part of an escape. -/
theorem nodeIdOf_append_blanks {w : Text} (hw : allBlank w = true) (value : Text) :
    nodeIdOf (value ++ w) = nodeIdOf value ++ w := by
  have hPlain : ∀ c ∈ w, c ≠ '%' ∧ hexValue? c = none := fun c hc =>
    have hc := allBlank_iff.1 hw c hc
    ⟨fun h => absurd (h ▸ hc) (by decide), hexValue?_of_isBlank hc⟩
  have hSelf : w.map (fun c => if c = .char '-' then .char ':' else c) = w.map id := by
    refine List.map_congr_left fun c hc => if_neg fun h => ?_
    exact absurd (h ▸ allBlank_iff.1 hw c hc) (by decide)
  rw [nodeIdOf, percentDecode_append hPlain, List.map_append, hSelf, List.map_id, nodeIdOf]

/-! ## Links in blanks -/

theorem parse?_blanks {u w : Text} (hu : allBlank u = true) (hw : allBlank w = true) (url : Text) :
    parse? (u ++ url ++ w) = (fileKey? (trim url)).map fun key =>
      ⟨key, (firstMatch nodeParameter? (url ++ w)).map nodeIdOf⟩ := by
  have hFront : ∀ c ∈ u, isSeparator c = false := fun c hc =>
    isSeparator_of_isBlank (allBlank_iff.1 hu c hc)
  rw [parse?, trim_append_right hw, trim_append_left hu, List.append_assoc,
    firstMatch_nodeParameter?_append hFront]

theorem EndsInNode.nodeId {url value : Text} (h : EndsInNode url value) {w : Text}
    (hw : allBlank w = true) :
    (firstMatch nodeParameter? (url ++ w)).map nodeIdOf =
      if value ++ w = [] then none else some (nodeIdOf value ++ w) := by
  have hValue : ∀ c ∈ w, isValueChar c = true := fun c hc =>
    isValueChar_of_isBlank (allBlank_iff.1 hw c hc)
  rw [h.firstMatch_append hValue]
  split
  · rfl
  · rw [Option.map_some, nodeIdOf_append_blanks hw]

/-- Blanks at the end of the value are read. -/
theorem EndsInNode.parse?_ne {url value : Text} (h : EndsInNode url value) {u w : Text}
    (hu : allBlank u = true) (hw : allBlank w = true) (hne : w ≠ []) (hSome : parse? url ≠ none) :
    parse? (u ++ url ++ w) ≠ parse? url := by
  have hSelf := h.nodeId (w := []) rfl
  rw [List.append_nil, List.append_nil, List.append_nil] at hSelf
  cases hKey : fileKey? (trim url) with
  | none =>
    rw [parse?, hKey] at hSome
    exact absurd rfl hSome
  | some key =>
    intro hEq
    rw [parse?_blanks hu hw, h.nodeId hw, parse?, hSelf, hKey, Option.map_some, Option.map_some,
      Option.some.injEq, Link.mk.injEq, if_neg (List.append_ne_nil_of_right_ne_nil value hne)]
      at hEq
    split at hEq
    · cases hEq.2
    · exact hne (by simpa using hEq.2)

/-! ## Main results -/

theorem endsInNode_of_query {lead value : Text} {c : CodePoint}
    (hLead : ∀ d ∈ lead, isSeparator d = false) (hc : isSeparator c = true)
    (hValue : ∀ d ∈ value, isValueChar d = true) :
    EndsInNode (lead ++ c :: ("node-id=" ++ value)) value := by
  refine ⟨lead, c, rfl, hc, hValue, ?_⟩
  rw [firstMatch_nodeParameter?_append hLead, firstMatch, nodeParameter?_separator hc]
  rfl

theorem endsInNode_plainLink : EndsInNode "https://figma.com/file/K?node-id=1-2" "1-2" := by
  have hLead : ∀ d ∈ ("https://figma.com/file/K" : Text), isSeparator d = false := by decide
  exact endsInNode_of_query hLead (c := '?') (by decide) (by decide)

/-- Blanks around a trimmed link are not ignored. -/
theorem not_parse?_padding : ¬ ∀ u url w : Text, allBlank u = true → Trimmed url →
    allBlank w = true → parse? (u ++ url ++ w) = parse? url := by
  intro h
  have hTrimmed : Trimmed "https://figma.com/file/K?node-id=1-2" :=
    { head := by decide
      last := by decide }
  have hSome : parse? "https://figma.com/file/K?node-id=1-2" ≠ none := by
    rw [parse?, hTrimmed.trim_eq]
    decide
  exact endsInNode_plainLink.parse?_ne (u := []) (w := "\n") rfl (by decide) (by decide) hSome
    (h [] _ "\n" rfl hTrimmed (by decide))

/-- A link with blanks around it names the same file, and it is read as the link itself unless
there are blanks behind it and it ends in the parameter for the node. Then the identifier goes on
with them. -/
theorem parse?_padding {u w : Text} (hu : allBlank u = true) (hw : allBlank w = true) (url : Text) :
    (parse? (u ++ url ++ w)).map fileKey = (parse? url).map fileKey ∧
      (parse? (u ++ url ++ w) = parse? url ↔
        w = [] ∨ parse? url = none ∨ ∀ value, ¬ EndsInNode url value) ∧
      ∀ value, EndsInNode url value → ∀ link ∈ parse? (u ++ url ++ w),
        link.nodeId = if value ++ w = [] then none else some (nodeIdOf value ++ w) := by
  have hPadded := parse?_blanks hu hw url
  refine ⟨?_, ⟨fun hEq => ?_, ?_⟩, fun value hEnds link hLink => ?_⟩
  · rw [hPadded, parse?, Option.map_map, Option.map_map]
    rfl
  · refine Classical.byContradiction fun hNone => ?_
    obtain ⟨hne, hNone⟩ := not_or.1 hNone
    obtain ⟨hSome, hEnds⟩ := not_or.1 hNone
    obtain ⟨value, hEnds⟩ := Classical.not_forall_not.1 hEnds
    exact hEnds.parse?_ne hu hw hne hSome hEq
  · rintro (rfl | hNone | hEnds)
    · rw [hPadded, List.append_nil, parse?]
    · rw [parse?, Option.map_eq_none_iff] at hNone
      rw [hPadded, parse?, hNone]
      rfl
    · have hNone : ¬ ∃ value, EndsInNode url value := by
        rintro ⟨value, h⟩
        exact hEnds value h
      rw [hPadded, parse?, (firstMatch_nodeParameter?_append_blanks hw url).resolve_left hNone]
  · rw [hPadded, hEnds.nodeId hw, Option.mem_def, Option.map_eq_some_iff] at hLink
    obtain ⟨key, -, rfl⟩ := hLink
    rfl

theorem parse?_padding_lineFeed :
    allBlank " " = true ∧ allBlank "\n" = true ∧
      (parse? (" " ++ "https://figma.com/file/K?node-id=1-2" ++ "\n")).map fileKey =
        (parse? "https://figma.com/file/K?node-id=1-2").map fileKey ∧
      ∀ link ∈ parse? (" " ++ "https://figma.com/file/K?node-id=1-2" ++ "\n"),
        link.nodeId = some (nodeIdOf "1-2" ++ "\n") := by
  have hPadding := parse?_padding (u := " ") (w := "\n") (by decide) (by decide)
    "https://figma.com/file/K?node-id=1-2"
  exact ⟨by decide, by decide, hPadding.1, hPadding.2.2 _ endsInNode_plainLink⟩

end StyleScaffold.Design.Link
