import StyleScaffold.Text.CodePoint

/-!
# Texts

A text is a list of code points. This module holds the few operations on texts that every other
part uses: cutting at a character, joining, and scanning for the places where a recogniser
succeeds.

A recogniser takes the text from some position on; it never looks behind it. `firstMatch`
and `allMatches` try it from left to right, and `allMatches` continues behind each match, so
two matches never overlap.
-/

namespace StyleScaffold

/-- A text as the sequence of its code points. -/
abbrev Text := List CodePoint

namespace Text

def ofString (s : String) : Text := s.toList.map .char

/-- The string of a text, with a replacement character for each surrogate. -/
def string (s : Text) : String := String.ofList (s.map CodePoint.toChar)

instance : Coe String Text := ⟨ofString⟩

def copies (n : Nat) (c : CodePoint) : Text := List.replicate n c

/-- The pieces between the occurrences of `sep`; there is always at least one piece. -/
def cut (sep : CodePoint) : Text → List Text
  | [] => [[]]
  | c :: cs =>
    if c = sep then [] :: cut sep cs
    else
      match cut sep cs with
      | [] => [[c]]
      | piece :: pieces => (c :: piece) :: pieces

/-- The text before the first `sep`, or all of it. -/
def before (sep : CodePoint) (s : Text) : Text := s.takeWhile (· ≠ sep)

/-- The two sides of the first `sep`, if there is one. -/
def halves? (sep : CodePoint) (s : Text) : Option (Text × Text) :=
  match s.dropWhile (· ≠ sep) with
  | [] => none
  | _ :: rest => some (s.takeWhile (· ≠ sep), rest)

/-- The pieces in order with `sep` between neighbours. -/
def join (sep : Text) : List Text → Text
  | [] => []
  | [s] => s
  | s :: t :: rest => s ++ sep ++ join sep (t :: rest)

/-- What follows `lead`, if the text starts with it. -/
def strip? : (lead s : Text) → Option Text
  | [], s => some s
  | _ :: _, [] => none
  | c :: cs, d :: ds => if c = d then strip? cs ds else none

def startsWith (lead s : Text) : Bool := (strip? lead s).isSome

/-- What follows the first occurrence of `mark`. -/
def after? (mark : Text) : Text → Option Text
  | [] => strip? mark []
  | c :: cs =>
    match strip? mark (c :: cs) with
    | some rest => some rest
    | none => after? mark cs

def holds (mark s : Text) : Bool := (after? mark s).isSome

/-- The longest leading run of characters in the class, and the rest. -/
def run (inClass : CodePoint → Bool) (s : Text) : Text × Text :=
  (s.takeWhile inClass, s.dropWhile inClass)

/-- The longest leading run, if it is not empty, and the rest. -/
def run? (inClass : CodePoint → Bool) (s : Text) : Option (Text × Text) :=
  if (s.takeWhile inClass).isEmpty then none else some (run inClass s)

/-- The text without characters of the class at either end. -/
def trimClass (inClass : CodePoint → Bool) (s : Text) : Text :=
  ((s.dropWhile inClass).reverse.dropWhile inClass).reverse

/-- The result of the recogniser at the leftmost position where it succeeds. -/
def firstMatch {α : Type} (recognise : Text → Option α) : Text → Option α
  | [] => recognise []
  | c :: cs =>
    match recognise (c :: cs) with
    | some a => some a
    | none => firstMatch recognise cs

/-- All results from left to right, each search starting where the last match ended. A match
that consumes nothing is passed over. -/
def allMatches {α : Type} (recognise : Text → Option (α × Text)) : Text → List α
  | [] => []
  | c :: cs =>
    match recognise (c :: cs) with
    | none => allMatches recognise cs
    | some (a, rest) =>
      if rest.length ≤ cs.length then a :: allMatches recognise rest
      else allMatches recognise cs
termination_by s => s.length

@[simp] theorem join_nil (sep : Text) : join sep [] = [] := rfl

@[simp] theorem join_singleton (sep s : Text) : join sep [s] = s := rfl

theorem join_cons_cons (sep s t : Text) (rest : List Text) :
    join sep (s :: t :: rest) = s ++ sep ++ join sep (t :: rest) := rfl

/-- Cutting at a character and joining with it gives the text back. -/
theorem join_cut (sep : CodePoint) (s : Text) : join [sep] (cut sep s) = s := by
  induction s with
  | nil => rfl
  | cons c cs ih =>
    have hne : cut sep cs ≠ [] := by
      cases cs with
      | nil => simp [cut]
      | cons d ds =>
        simp only [cut]
        split
        · simp
        · split <;> simp
    unfold cut
    split
    · rename_i h
      cases hcut : cut sep cs with
      | nil => exact absurd hcut hne
      | cons piece pieces =>
        rw [hcut] at ih
        rw [join_cons_cons, ih]
        simp [h]
    · cases hcut : cut sep cs with
      | nil => exact absurd hcut hne
      | cons piece pieces =>
        rw [hcut] at ih
        cases pieces with
        | nil => simpa using ih
        | cons p ps =>
          rw [join_cons_cons] at ih
          simp only [join_cons_cons, List.cons_append]
          rw [ih]

/-- A text that starts with `lead` is `lead` and what follows. -/
theorem strip?_eq_some_iff {lead s rest : Text} :
    strip? lead s = some rest ↔ s = lead ++ rest := by
  induction lead generalizing s with
  | nil => simp [strip?]
  | cons c cs ih =>
    cases s with
    | nil => simp [strip?]
    | cons d ds =>
      simp only [strip?, List.cons_append, List.cons.injEq]
      split
      · rename_i h
        rw [ih]
        simp [h]
      · rename_i h
        simp [Ne.symm h]

end Text

end StyleScaffold
