import StyleScaffold.Proofs.Css.BlockComposition

/-!
# Braces that are closed before they are opened

The scan counts braces, and asks only at the ends of lines whether as many are closed as are opened.
So a block is in balance as a whole, but nothing is done about a brace that is closed while none
is open.

* `exists_append_of_solidLines`: a text can be cut wherever one of its solid lines ends.
* `exists_parts_of_blocks`: so the blocks in front of a block, the block and the blocks behind it
  are those of three parts of the text.
* `not_noStrayClosing_blocks`: it is false that a block closes only braces that it opened.
* `blocks_noStrayClosing`: it does exactly when the text does in the part of the block.
-/

namespace StyleScaffold.Css

open Text

/-- No text with which `s` begins closes more braces than it opens. -/
def NoStrayClosing (s : Text) : Prop :=
  ∀ p, p <+: s → p.count ('}' : CodePoint) ≤ p.count ('{' : CodePoint)

/-! ## Braces alone -/

/-- Only the braces of a text matter, and their order. -/
theorem noStrayClosing_filter_iff {s : Text} :
    NoStrayClosing (s.filter isBrace) ↔ NoStrayClosing s := by
  constructor
  · intro h p hp
    have hFilter := h (p.filter isBrace) (hp.filter isBrace)
    rwa [List.count_filter rfl, List.count_filter rfl] at hFilter
  · intro h p hp
    obtain ⟨q, hq, rfl⟩ := List.prefix_filter_iff.1 hp
    rw [List.count_filter rfl, List.count_filter rfl]
    exact h q hq

theorem NoStrayClosing.congr {s t : Text} (h : s.filter isBrace = t.filter isBrace) :
    NoStrayClosing s ↔ NoStrayClosing t := by
  rw [← noStrayClosing_filter_iff, h, noStrayClosing_filter_iff]

/-- A block closes braces as the text does from which its lines are. -/
theorem noStrayClosing_blockText (s : Text) : NoStrayClosing (blockText s) ↔ NoStrayClosing s := by
  apply NoStrayClosing.congr
  rw [blockText, filter_blockOfLines fun _ => isBrace_of_isBlank,
    filter_flatten_solidLines fun _ => isBrace_of_isBlank]

/-! ## The part of a block -/

theorem exists_append_of_solidLines {s : Text} {front behind : List Text}
    (h : solidLines s = front ++ behind) :
    ∃ a b, s = a ++ b ∧ solidLines a = front ∧ solidLines b = behind := by
  by_cases hFront : front = []
  · subst hFront
    exact ⟨[], s, rfl, rfl, h⟩
  by_cases hBehind : behind = []
  · subst hBehind
    exact ⟨s, [], (List.append_nil s).symm, by rw [h, List.append_nil], rfl⟩
  have hLess : front.length < (solidLines s).length := by
    rw [h, List.length_append]
    have := List.length_pos_iff.2 hBehind
    omega
  obtain ⟨a, c, b, rfl, hc, hLines⟩ :=
    exists_break_of_prefix ⟨behind, h.symm⟩ hFront hLess
  rw [solidLines_append_break hc, hLines, List.append_cancel_left_eq] at h
  refine ⟨a, c :: b, rfl, hLines, ?_⟩
  rw [← h, ← List.nil_append (c :: b), solidLines_append_break hc]
  rfl

theorem factorization_flatten {gs : List (List Text)}
    (h : ∀ group ∈ gs, IsShortestBalanced group group) : Factorization gs.flatten gs [] := by
  induction gs with
  | nil =>
    refine .done ?_
    intro p hPrefix hne
    exact absurd (List.prefix_nil.1 hPrefix) hne
  | cons group rest ih =>
    rw [List.forall_mem_cons] at h
    have hFirst := IsShortestBalanced.of_prefix h.1 (List.prefix_append group rest.flatten)
    exact .group rfl hFirst (ih h.2)

theorem braceBalance_flatten {gs : List (List Text)} (h : ∀ group ∈ gs, Balanced group) :
    braceBalance gs.flatten.flatten = 0 := by
  induction gs with
  | nil => rfl
  | cons group rest ih =>
    rw [List.forall_mem_cons] at h
    have hGroup := h.1.closes
    rw [List.flatten_cons, List.flatten_append, braceBalance_append, ih h.2, braceBalance]
    omega

/-- A text has parts with the blocks in front of a block, the block itself and the blocks behind it.
In the first part as many braces are closed as opened. -/
theorem exists_parts_of_blocks {sheet block : Text} {front behind : List Text}
    (h : blocks sheet = front ++ block :: behind) :
    ∃ a b c, sheet = a ++ b ++ c ∧ blocks a = front ∧ blocks b = [block] ∧ blocks c = behind ∧
      braceBalance a = 0 ∧ blockText b = block := by
  obtain ⟨gs, more, hGroups, rfl, hMore⟩ := List.map_eq_append_iff.1 h
  obtain ⟨group, gs', rfl, rfl, rfl⟩ := List.map_eq_cons_iff.1 hMore
  have hShortest : ∀ g ∈ gs ++ group :: gs', IsShortestBalanced g g := by
    intro g hg
    exact isShortestBalanced_of_mem_groups (hGroups ▸ hg)
  rw [List.forall_mem_append, List.forall_mem_cons] at hShortest
  obtain ⟨hFront, hGroup, -⟩ := hShortest
  obtain ⟨left, hFactor⟩ := exists_factorization_groups (solidLines sheet)
  rw [hGroups] at hFactor
  obtain ⟨rest, hLines, hRest⟩ := hFactor.exists_append
  obtain ⟨a, s, rfl, ha, rfl⟩ := exists_append_of_solidLines hLines
  cases hRest with
  | group append _ hLast =>
    obtain ⟨b, c, rfl, hb, rfl⟩ := exists_append_of_solidLines append
    refine ⟨a, b, c, (List.append_assoc a b c).symm, ?_, ?_, ?_, ?_, ?_⟩
    · rw [blocks, ha, (factorization_flatten hFront).groups_eq]
    · have hOne := factorization_flatten (List.forall_mem_singleton.2 hGroup)
      rw [List.flatten_singleton] at hOne
      rw [blocks, hb, hOne.groups_eq, List.map_singleton]
    · rw [blocks, hLast.groups_eq]
    · rw [← braceBalance_flatten_solidLines, ha]
      exact braceBalance_flatten fun g hg => (hFront g hg).balanced
    · rw [blockText, hb]

/-! ## Closing braces in blocks -/

/-- Braces on one line can be in balance although the closing one comes first. -/
theorem not_noStrayClosing_blocks :
    ¬ ∀ sheet : Text, ∀ block ∈ blocks sheet, NoStrayClosing block ∧
      block.count ('}' : CodePoint) = block.count ('{' : CodePoint) := by
  intro h
  have hBlock : blocks "\x7d\x7b" = [("\x7d\x7b" : Text)] := by cbv
  obtain ⟨hStray, -⟩ := h "\x7d\x7b" "\x7d\x7b" (by rw [hBlock]; exact List.mem_singleton_self _)
  exact absurd (hStray ['}'] ⟨['{'], rfl⟩) (by decide)

/-- A block closes as many braces as it opens. No part with which it begins closes more than it
opens, exactly if none does that ends in the part of the text from which the block is. -/
theorem blocks_noStrayClosing {sheet block : Text} {front behind : List Text}
    (h : blocks sheet = front ++ block :: behind) :
    block.count ('}' : CodePoint) = block.count ('{' : CodePoint) ∧
      (∃ a b c, sheet = a ++ b ++ c ∧ blocks a = front ∧ blocks b = [block] ∧ blocks c = behind ∧
        (NoStrayClosing block ↔ ∀ p, p <+: b →
          (a ++ p).count ('}' : CodePoint) ≤ (a ++ p).count ('{' : CodePoint))) ∧
      (NoStrayClosing sheet → NoStrayClosing block) := by
  obtain ⟨a, b, c, rfl, ha, hb, hc, hBalance, hText⟩ := exists_parts_of_blocks h
  have hStray : NoStrayClosing block ↔ ∀ p, p <+: b →
      (a ++ p).count ('}' : CodePoint) ≤ (a ++ p).count ('{' : CodePoint) := by
    rw [← hText, noStrayClosing_blockText, NoStrayClosing]
    refine forall_congr' fun p => forall_congr' fun _ => ?_
    rw [List.count_append, List.count_append]
    rw [braceBalance] at hBalance
    omega
  refine ⟨?_, ⟨a, b, c, rfl, ha, hb, hc, hStray⟩, ?_⟩
  · have hBlock : block ∈ blocks (a ++ b ++ c) := by
      rw [h]
      exact List.mem_append_right _ List.mem_cons_self
    have hCloses := (isOneBlock_of_mem_blocks hBlock).closes
    rw [braceBalance] at hCloses
    omega
  · intro hSheet
    rw [hStray]
    intro p hp
    apply hSheet
    rw [List.append_assoc, List.prefix_append_right_inj]
    exact hp.trans (List.prefix_append _ _)

/-- In this text a brace is closed before it is opened, in the second block. -/
theorem blocks_noStrayClosing_secondLine :
    blocks "a \x7b\x7d\n\x7d\x7b" = [("a \x7b\x7d" : Text)] ++ ("\x7d\x7b" : Text) :: [] ∧
      ∃ a b c : Text, "a \x7b\x7d\n\x7d\x7b" = a ++ b ++ c ∧
        blocks a = [("a \x7b\x7d" : Text)] ∧ blocks b = [("\x7d\x7b" : Text)] ∧ blocks c = [] ∧
        (NoStrayClosing "\x7d\x7b" ↔ ∀ p, p <+: b →
          (a ++ p).count ('}' : CodePoint) ≤ (a ++ p).count ('{' : CodePoint)) :=
  have h : blocks "a \x7b\x7d\n\x7d\x7b" =
      [("a \x7b\x7d" : Text)] ++ ("\x7d\x7b" : Text) :: [] := by cbv
  ⟨h, (blocks_noStrayClosing h).2.1⟩

end StyleScaffold.Css
