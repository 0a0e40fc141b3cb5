import StyleScaffold.Proofs.Css.LastSemicolon
import StyleScaffold.Proofs.Text.Pieces

/-!
# Findings in a rewritten text

Minification trims a stylesheet, collapses its blanks and drops its last semicolons. Each of these
rewritings keeps what a scan of the stylesheet finds (`KeepsFindings`). A run of a class ends at the
same place, provided that the class is loose: it has all blanks in it, and does not tell a semicolon
from a closing brace. All this needs that the text ends with a closing brace, because there is no
other end that trimming does not move.

* `keepsFindings_trimRight`, `keepsFindings_collapse`, `keepsFindings_dropLastSemicolons`.
* `KeepsFindings.allMatches_eq`: if a recogniser gives at each place of the rewritten text what it
  gives at the same place of the text, then so does the scan.
-/

namespace StyleScaffold.Css

open Text

variable {α : Type} {r : Text → Option (α × Text)} {T : Text → Text} {p : CodePoint → Bool}
  {s : Text}

/-! ## Scanning -/

/-- What the recogniser accepts starts with a character that stands in no gap. -/
def IsScanner (r : Text → Option (α × Text)) : Prop :=
  ∀ s a rest, r s = some (a, rest) → ∃ c m, isCore c = true ∧ s = c :: (m ++ rest)

theorem allMatches_of_none {c : CodePoint} (h : r (c :: s) = none) :
    allMatches r (c :: s) = allMatches r s := by
  rw [allMatches, h]

theorem IsScanner.allMatches_of_some (hScan : IsScanner r) {a : α} {rest : Text}
    (h : r s = some (a, rest)) : allMatches r s = a :: allMatches r rest := by
  obtain ⟨c, m, -, rfl⟩ := hScan s a rest h
  rw [allMatches, h]
  exact if_pos (by simp)

theorem IsScanner.eq_none (hScan : IsScanner r) {c : CodePoint} (hc : isCore c = false)
    (s : Text) : r (c :: s) = none := by
  cases h : r (c :: s) with
  | none => rfl
  | some found =>
    obtain ⟨d, m, hd, hEq⟩ := hScan _ _ _ h
    cases hEq
    rw [hc] at hd
    contradiction

theorem IsScanner.allMatches_gap (hScan : IsScanner r) {u : Text}
    (hu : ∀ d ∈ u, isGapChar d = true) (t : Text) : allMatches r (u ++ t) = allMatches r t := by
  induction u with
  | nil => rfl
  | cons d u ih =>
    rw [List.forall_mem_cons] at hu
    have hd : isCore d = false := by rw [isCore, hu.1]; rfl
    rw [List.cons_append, allMatches_of_none (hScan.eq_none hd _), ih hu.2]

theorem IsScanner.exists_of_mem_allMatches (hScan : IsScanner r) {a : α}
    (h : a ∈ allMatches r s) : ∃ front back rest, s = front ++ back ∧ r back = some (a, rest) := by
  fun_induction allMatches r s with
  | case1 => cases h
  | case2 c s hNone ih =>
    obtain ⟨front, back, rest, rfl, hBack⟩ := ih h
    exact ⟨c :: front, back, rest, rfl, hBack⟩
  | case3 c s b rest hSome hLength ih =>
    rcases List.mem_cons.1 h with rfl | hMore
    · exact ⟨[], c :: s, rest, rfl, hSome⟩
    · obtain ⟨front, back, more, rfl, hBack⟩ := ih hMore
      obtain ⟨d, m, -, hEq⟩ := hScan _ _ _ hSome
      exact ⟨d :: (m ++ front), back, more, by rw [hEq]; simp, hBack⟩
  | case4 c s b rest hSome hLength ih =>
    obtain ⟨front, back, more, rfl, hBack⟩ := ih h
    exact ⟨c :: front, back, more, rfl, hBack⟩

/-- Induction along the places at which a scan looks. -/
theorem IsScanner.induction (hScan : IsScanner r)
    {P : Text → Prop} (nil : P []) (skip : ∀ c s, r (c :: s) = none → P s → P (c :: s))
    (found : ∀ s a rest, r s = some (a, rest) → P rest → P s) (s : Text) : P s := by
  induction hLength : s.length using Nat.strongRecOn generalizing s with
  | ind n ih =>
    subst hLength
    cases s with
    | nil => exact nil
    | cons c s =>
      cases h : r (c :: s) with
      | none => exact skip c s h (ih s.length (by simp) s rfl)
      | some accepted =>
        obtain ⟨d, m, -, hEq⟩ := hScan _ _ _ h
        refine found _ _ _ h (ih _ ?_ _ rfl)
        rw [hEq, List.length_cons, List.length_append]
        omega

/-- Nothing is found just where nothing is accepted at any place. -/
theorem IsScanner.allMatches_eq_nil_iff (hScan : IsScanner r) :
    allMatches r s = [] ↔ ∀ front back, s = front ++ back → r back = none := by
  constructor
  · induction s using hScan.induction with
    | nil =>
      intro _ front back hEq
      cases hNone : r back with
      | none => rfl
      | some accepted =>
        obtain ⟨c, m, -, hBack⟩ := hScan _ _ _ hNone
        simp [hBack] at hEq
    | skip c s h ih =>
      rw [allMatches_of_none h]
      intro hNil front back hEq
      cases front with
      | nil => rwa [← List.nil_append back, ← hEq]
      | cons d front =>
        cases hEq
        exact ih hNil front back rfl
    | found s a rest h =>
      rw [hScan.allMatches_of_some h]
      intro hNil
      cases hNil
  · intro hNone
    rw [List.eq_nil_iff_forall_not_mem]
    intro a ha
    obtain ⟨front, back, rest, hEq, hSome⟩ := hScan.exists_of_mem_allMatches ha
    rw [hNone front back hEq] at hSome
    cases hSome

/-! ## The end of the text -/

/-- Blanks aside, the text ends with a closing brace. -/
def EndsClosed (s : Text) : Prop := (trimRight s).getLast? = some (.char '}')

instance (s : Text) : Decidable (EndsClosed s) :=
  inferInstanceAs (Decidable ((trimRight s).getLast? = some (.char '}')))

namespace EndsClosed

theorem of_append {u : Text} (h : EndsClosed (u ++ s)) (hs : allBlank s = false) :
    EndsClosed s := by
  rwa [EndsClosed, trimRight_append_solid hs, getLast?_append_of_ne_nil (trimRight_ne_nil hs)] at h

theorem of_append_of_not_mem {u : Text} (h : EndsClosed (u ++ s)) (hu : (.char '}') ∉ u) :
    EndsClosed s := by
  cases hs : allBlank s with
  | false => exact h.of_append hs
  | true =>
    rw [EndsClosed, trimRight_append hs] at h
    exact absurd ((trimRight_sublist u).subset (List.mem_of_getLast? h)) hu

theorem trimRight (h : EndsClosed s) : EndsClosed (trimRight s) := by
  rwa [EndsClosed, trimRight_trimRight]

theorem collapse (h : EndsClosed s) {f : CodePoint} (hf : isBlank f = true) :
    EndsClosed (collapse f s) := by
  obtain ⟨front, hFront⟩ := List.getLast?_eq_some_iff.1 h
  rw [EndsClosed, trimRight_collapse hf, hFront, collapse_append_cons (by decide), collapse_nil,
    List.getLast?_concat]

end EndsClosed

/-! ## Rewritings that keep what is found -/

/-- All blanks are in the class, and a semicolon is if a closing brace is. -/
structure IsLoose (p : CodePoint → Bool) : Prop where
  blank : ∀ c, isBlank c = true → p c = true
  same : p (.char ';') = p (.char '}')

theorem isLoose_isBlank : IsLoose isBlank := ⟨fun _ h => h, by decide⟩

/-- The text ends with a character that is not blank, and holds no semicolon. -/
structure IsCompact (m : Text) : Prop where
  last : ∀ c ∈ m.getLast?, isBlank c = false
  noSemicolon : (.char ';') ∉ m

/-- A rewriting that moves no end of a compact text or of a run. -/
structure KeepsFindings (T : Text → Text) : Prop extends IsRewriting T where
  append : ∀ {m}, IsCompact m → ∀ s, T (m ++ s) = T m ++ T s
  head_loose : ∀ {p}, IsLoose p → ∀ {s}, EndsClosed s → (T s).head?.any p = s.head?.any p
  trim_takeWhile : ∀ {p}, IsLoose p → ∀ s, trim ((T s).takeWhile p) = T (trim (s.takeWhile p))
  dropWhile : ∀ {p}, IsLoose p → ∀ s, (T s).dropWhile p = T (s.dropWhile p)

theorem isRewriting_trimRight : IsRewriting trimRight where
  nil := rfl
  step := by
    intro c s
    cases hs : allBlank s with
    | false => exact Or.inl (trimRight_append_solid hs [c])
    | true =>
      cases hc : isBlank c with
      | false =>
        have hSelf : trimRight [c] = [c] := trimRight_eq_self (by simpa using hc)
        rw [trimRight_of_allBlank hs, ← List.singleton_append, trimRight_append hs, hSelf]
        exact Or.inl rfl
      | true =>
        have hAll : allBlank (c :: s) = true := by rw [allBlank_cons, hc, hs]; rfl
        refine Or.inr ⟨isGapChar_iff.2 (Or.inl hc), s, [], [], (List.append_nil s).symm, ?_, ?_, ?_⟩
        · exact trimRight_of_allBlank hAll
        · intro d hd
          rw [List.append_nil] at hd
          exact isGapChar_iff.2 (Or.inl (allBlank_iff.1 hs d hd))
        · intro _ d hd
          cases hd

theorem keepsFindings_trimRight : KeepsFindings trimRight where
  toIsRewriting := isRewriting_trimRight
  append := by
    intro m hm s
    rw [trimRight_eq_self hm.last]
    cases hs : allBlank s with
    | false => exact trimRight_append_solid hs m
    | true =>
      rw [trimRight_append hs, trimRight_of_allBlank hs, trimRight_eq_self hm.last, List.append_nil]
  head_loose := by
    intro p _ s hs
    obtain ⟨w, -, hEq⟩ := exists_trimRight s
    cases hTrim : trimRight s with
    | nil =>
      rw [EndsClosed, hTrim] at hs
      cases hs
    | cons c rest =>
      rw [hTrim] at hEq
      rw [hEq]
      rfl
  trim_takeWhile := by
    intro p _ s
    rw [trim_takeWhile_trimRight, trim, trimRight_trimRight]
  dropWhile := fun _ s => dropWhile_trimRight _ s

theorem keepsFindings_collapse {f : CodePoint} (hf : isBlank f = true) :
    KeepsFindings (collapse f) where
  toIsRewriting := isRewriting_collapse hf
  append := fun hm s => collapse_append hm.last s
  head_loose := by
    intro p hp s _
    cases s with
    | nil => rw [collapse_nil]
    | cons c s =>
      cases hc : isBlank c with
      | false => rw [collapse_cons_of_solid hc]; rfl
      | true =>
        rw [collapse_cons_of_blank hc, List.head?_cons, List.head?_cons, Option.any_some,
          Option.any_some, hp.blank c hc, hp.blank f hf]
  trim_takeWhile := by
    intro p hp s
    have hSame : ∀ c, isBlank c = true → p c = p f := by
      intro c hc
      rw [hp.blank c hc, hp.blank f hf]
    rw [takeWhile_collapse hSame, trim_collapse hf]
  dropWhile := by
    intro p hp s
    apply dropWhile_collapse
    intro c hc
    rw [hp.blank c hc, hp.blank f hf]

theorem keepsFindings_dropLastSemicolons : KeepsFindings dropLastSemicolons where
  toIsRewriting := isRewriting_dropLastSemicolons
  append := by
    intro m hm s
    rw [dropLastSemicolons_append hm.noSemicolon, dropLastSemicolons_of_not_mem hm.noSemicolon]
  head_loose := by
    intro p hp s _
    induction s using semicolonInduction with
    | nil => rw [dropLastSemicolons_nil]
    | keep c s h _ => rw [dropLastSemicolons_cons h]; rfl
    | drop w rest hw _ => rw [dropLastSemicolons_closing hw]; exact hp.same.symm
  trim_takeWhile := by
    intro p hp s
    rw [takeWhile_dropLastSemicolons hp.blank hp.same, trim_dropLastSemicolons]
  dropWhile := fun hp s => dropWhile_dropLastSemicolons hp.blank hp.same s

namespace KeepsFindings

theorem trimLeft_eq (h : KeepsFindings T) (s : Text) : trimLeft (T s) = T (trimLeft s) :=
  h.dropWhile isLoose_isBlank s

/-- A loose run is there when it was, and it is rewritten but for blanks at its ends. -/
theorem run?_loose (h : KeepsFindings T) (hp : IsLoose p) (hs : EndsClosed s) :
    (run? p s = none ∧ run? p (T s) = none) ∨
      ∃ u v rest, run? p s = some (u, rest) ∧ run? p (T s) = some (v, T rest) ∧
        trim v = T (trim u) := by
  rw [run?_eq, run?_eq, h.head_loose hp hs, h.dropWhile hp]
  split
  · exact Or.inr ⟨_, _, _, rfl, rfl, h.trim_takeWhile hp s⟩
  · exact Or.inl ⟨rfl, rfl⟩

/-! ## The whole scan -/

/-- The text ends with a closing brace, or only blanks are left of it. -/
def IsLeft (s : Text) : Prop := EndsClosed s ∨ allBlank s = true

theorem isLeft_of_append {u : Text} (h : IsLeft (u ++ s)) : IsLeft s := by
  cases hs : allBlank s with
  | true => exact Or.inr hs
  | false =>
    refine h.imp (fun hEnd => hEnd.of_append hs) (fun hAll => ?_)
    rw [allBlank_append, hs, Bool.and_false] at hAll
    contradiction

theorem allMatches_eq (h : KeepsFindings T) (hScan : IsScanner r) {g : α → α}
    (hAt : ∀ s, EndsClosed s → r (T s) = (r s).map (Prod.map g T)) (hs : IsLeft s) :
    allMatches r (T s) = (allMatches r s).map g := by
  induction hLength : s.length using Nat.strongRecOn generalizing s with
  | ind n ih =>
    subst hLength
    cases s with
    | nil => rw [h.nil, allMatches]; rfl
    | cons c s =>
      cases hHere : r (c :: s) with
      | some found =>
        obtain ⟨d, m, hd, hEq⟩ := hScan _ _ _ hHere
        have hEnd : EndsClosed (c :: s) := by
          refine hs.resolve_right fun hAll => ?_
          rw [hEq, allBlank_cons, isBlank_of_isCore hd] at hAll
          contradiction
        have hRest : IsLeft found.2 := by
          rw [hEq, ← List.cons_append] at hs
          exact isLeft_of_append hs
        have hThere : r (T (c :: s)) = some (g found.1, T found.2) := by
          rw [hAt _ hEnd, hHere]
          rfl
        have hShort : found.2.length < (c :: s).length := by
          rw [hEq, List.length_cons, List.length_append]
          omega
        rw [hScan.allMatches_of_some hThere, hScan.allMatches_of_some hHere, List.map_cons,
          ih _ hShort hRest rfl]
      | none =>
        rcases h.step c s with hKeep | ⟨hGap, skipped, rest, filler, rfl, hEq, hAll, -⟩
        · have hThere : r (c :: T s) = none := by
            rcases hs with hEnd | hBlank
            · rw [← hKeep, hAt _ hEnd, hHere]
              rfl
            · rw [allBlank_cons, Bool.and_eq_true] at hBlank
              apply hScan.eq_none
              rw [isCore, isGapChar, hBlank.1]
              rfl
          rw [hKeep, allMatches_of_none hThere, allMatches_of_none hHere]
          exact ih s.length (by simp) (isLeft_of_append (u := [c]) hs) rfl
        · rw [List.forall_mem_append] at hAll
          have hFront : ∀ d ∈ c :: skipped, isGapChar d = true :=
            List.forall_mem_cons.2 ⟨hGap, hAll.1⟩
          have hShort : rest.length < (c :: (skipped ++ rest)).length := by
            rw [List.length_cons, List.length_append]
            omega
          rw [hEq, hScan.allMatches_gap hAll.2, ← List.cons_append, hScan.allMatches_gap hFront]
          rw [← List.cons_append] at hs
          exact ih _ hShort (isLeft_of_append hs) rfl

end KeepsFindings

end StyleScaffold.Css
