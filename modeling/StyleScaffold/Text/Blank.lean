import StyleScaffold.Text.Basic

/-!
# Blank characters

Blank characters are the Unicode white space and the four information separators. A text is
trimmed by dropping the blanks at both ends, and collapsed by putting one character in the
place of each longest run of blanks.
-/

namespace StyleScaffold.Text

/-- White space, and the separators U+001C to U+001F. -/
def isBlank (c : CodePoint) : Bool :=
  let n := c.toNat
  n == 0x20 || (0x09 ≤ n && n ≤ 0x0D) || (0x1C ≤ n && n ≤ 0x1F) || n == 0x85 || n == 0xA0
    || n == 0x1680 || (0x2000 ≤ n && n ≤ 0x200A) || n == 0x2028 || n == 0x2029 || n == 0x202F
    || n == 0x205F || n == 0x3000

def trimLeft (s : Text) : Text := s.dropWhile isBlank

def trimRight (s : Text) : Text := (s.reverse.dropWhile isBlank).reverse

def trim (s : Text) : Text := trimRight (trimLeft s)

def allBlank (s : Text) : Bool := s.all isBlank

/-- Each longest run of blanks becomes the one character `filler`. -/
def collapse (filler : CodePoint) : Text → Text
  | [] => []
  | c :: cs =>
    if isBlank c then filler :: collapse filler (cs.dropWhile isBlank)
    else c :: collapse filler cs
termination_by s => s.length
decreasing_by
  · have := (List.dropWhile_sublist isBlank (l := cs)).length_le
    simp only [List.length_cons]; omega
  · simp

/-- The longest runs of characters that are not blank. -/
def words : Text → List Text
  | [] => []
  | c :: cs =>
    if isBlank c then words cs
    else (c :: cs.takeWhile (! isBlank ·)) :: words (cs.dropWhile (! isBlank ·))
termination_by s => s.length
decreasing_by
  · simp
  · have := (List.dropWhile_sublist (! isBlank ·) (l := cs)).length_le
    simp only [List.length_cons]; omega

/-- A trimmed text does not start with a blank. -/
theorem not_isBlank_of_head_trimLeft {s rest : Text} {c : CodePoint} (h : trimLeft s = c :: rest) :
    isBlank c = false := by
  induction s with
  | nil => simp [trimLeft] at h
  | cons d ds ih =>
    by_cases hd : isBlank d = true
    · exact ih (by simpa [trimLeft, hd] using h)
    · simp only [trimLeft, List.dropWhile_cons, hd, if_false, Bool.false_eq_true,
        List.cons.injEq] at h
      rw [← h.1]
      simpa using hd

/-- Trimming at the left changes nothing when it has been done. -/
@[simp] theorem trimLeft_trimLeft (s : Text) : trimLeft (trimLeft s) = trimLeft s := by
  cases h : trimLeft s with
  | nil => rfl
  | cons c rest => simp [trimLeft, not_isBlank_of_head_trimLeft h]

/-- Trimming at the right changes nothing when it has been done. -/
@[simp] theorem trimRight_trimRight (s : Text) : trimRight (trimRight s) = trimRight s := by
  have h := trimLeft_trimLeft s.reverse
  simp only [trimLeft] at h
  simp only [trimRight, List.reverse_reverse, h]

end StyleScaffold.Text
