/-!
# Character ranges

A class of characters is given by the ascending list of its ranges of code points, each with
its first and last member.
-/

namespace StyleScaffold.Text

/-- Whether a code point lies in one of the ranges; the ranges must ascend. -/
def covered : List (Nat × Nat) → Nat → Bool
  | [], _ => false
  | (low, high) :: rest, n => if n < low then false else n ≤ high || covered rest n

end StyleScaffold.Text
