/-!
# Binary floating-point numbers

A finite number of the 64-bit binary format is a sign and a whole number of units of 2^-1074,
the distance of the two smallest positive numbers. The numbers with less than 54 significant
bits form the grid of the format: up to 2^53 units every whole number is on it, and above that
the distance of neighbours doubles with every power of two. Rounding goes to the nearest grid
point, a half to the even neighbour, and whatever rounds to 2^1024 or more is infinite.

All of it is arithmetic of natural numbers.
-/

namespace StyleScaffold

-- a power is the one of the core library, whatever else is imported
attribute [instance (high), default_instance 20000] instPowNat

/-- The quotient rounded to the nearest whole number, halves to the even one. -/
def roundHalfEven (num den : Nat) : Nat :=
  let q := num / den
  let twice := 2 * (num % den)
  if twice < den then q
  else if twice > den then q + 1
  else if q % 2 = 0 then q else q + 1

/-- The units in one. -/
@[irreducible] def Binary64.unitsPerOne : Nat := 2 ^ 1074

/-- The least number of units that is too large for a finite number. -/
@[irreducible] def Binary64.unitsLimit : Nat := 2 ^ 2098

/-- A floating-point number. -/
inductive Binary64 where
  /-- The number `± units · 2^-1074`; zero has two signs. -/
  | finite (negative : Bool) (units : Nat) (bounded : units < Binary64.unitsLimit)
  | infinite (negative : Bool)
  | nan
  deriving DecidableEq, Repr

/-- Why a number could not be used as another kind of number. -/
inductive NumberFault where
  /-- A text that writes no number, or the number that is none. -/
  | notANumber
  /-- A number that is too large for its use, or infinite. -/
  | tooLarge
  deriving DecidableEq, Repr

namespace Binary64

theorem unitsPerOne_pos : 0 < unitsPerOne := by
  unfold unitsPerOne
  exact Nat.two_pow_pos 1074

theorem unitsPerOne_lt_unitsLimit : unitsPerOne < unitsLimit := by
  have hPow : ∀ a b : Nat, a < b → 2 ^ a < 2 ^ b := fun _ _ => Nat.pow_lt_pow_right Nat.one_lt_two
  unfold unitsPerOne unitsLimit
  exact hPow 1074 2098 (by decide)

/-- The distance of grid neighbours above this number of units. -/
def gridStep (units : Nat) : Nat := 2 ^ (units.log2 - 52)

/-- The grid point nearest to a quotient of units, before the limit is looked at. -/
def nearestUnits (num den : Nat) : Nat :=
  let step := gridStep (num / den)
  step * roundHalfEven num (den * step)

/-- The number nearest to a quotient of units. -/
def ofUnits (negative : Bool) (num den : Nat) : Binary64 :=
  let units := nearestUnits num den
  if h : units < unitsLimit then .finite negative units h else .infinite negative

/-- The number nearest to a quotient. -/
def ofRatio (negative : Bool) (num den : Nat) : Binary64 :=
  ofUnits negative (num * unitsPerOne) den

/-- Zero with a sign. -/
def signedZero (negative : Bool) : Binary64 :=
  .finite negative 0 (Nat.lt_trans unitsPerOne_pos unitsPerOne_lt_unitsLimit)

/-- The number nearest to `digits · 10^exponent`, where `digits` has `size` decimal digits.
Beyond 310 digits in front of the point it is infinite, and with 330 zeros behind the point it
is zero, so no power of ten is ever larger than that. -/
def ofDecimal (negative : Bool) (digits size : Nat) (exponent : Int) : Binary64 :=
  if digits = 0 then signedZero negative
  else if 310 < size + exponent then .infinite negative
  else if size + exponent < -330 then signedZero negative
  else if 0 ≤ exponent then ofRatio negative (digits * 10 ^ exponent.toNat) 1
  else ofRatio negative digits (10 ^ (-exponent).toNat)

def zero : Binary64 := signedZero false

def one : Binary64 := .finite false unitsPerOne unitsPerOne_lt_unitsLimit

/-- The number itself, if it is finite. -/
def finite? : Binary64 → Except NumberFault Binary64
  | .finite s u h => .ok (.finite s u h)
  | _ => .error .tooLarge

/-- The nearest number to a whole number, if it is finite. -/
def ofInt? (n : Int) : Except NumberFault Binary64 := (ofRatio (n < 0) n.natAbs 1).finite?

/-- Whether the number differs from zero; the number that is none does. -/
def isNonzero : Binary64 → Bool
  | .finite _ units _ => units ≠ 0
  | _ => true

def signed (negative : Bool) (n : Nat) : Int := if negative then -(n : Int) else n

/-- The number without its fraction. -/
def truncate? : Binary64 → Except NumberFault Int
  | .finite s units _ => .ok (signed s (units / unitsPerOne))
  | .infinite _ => .error .tooLarge
  | .nan => .error .notANumber

/-- The nearest whole number, halves to the even one. -/
def round? : Binary64 → Except NumberFault Int
  | .finite s units _ => .ok (signed s (roundHalfEven units unitsPerOne))
  | .infinite _ => .error .tooLarge
  | .nan => .error .notANumber

/-- The product with a whole number, rounded. -/
def times (k : Nat) : Binary64 → Binary64
  | .finite s units _ => ofUnits s (units * k) 1
  | x => x

/-- The quotient by a whole number, rounded. -/
def dividedBy (k : Nat) : Binary64 → Binary64
  | .finite s units _ => ofUnits s units k
  | x => x

/-- The whole number that the number is, if it is one. -/
def whole? : Binary64 → Option Int
  | .finite s units _ =>
    if units % unitsPerOne = 0 then some (signed s (units / unitsPerOne)) else none
  | _ => none

/-- Whether the number is at most the given whole number. -/
def atMost (x : Binary64) (bound : Nat) : Bool :=
  match x with
  | .finite negative units _ => negative || units ≤ bound * unitsPerOne
  | .infinite negative => negative
  | .nan => false

end Binary64

/-- Rounding never goes below the whole part of the quotient. -/
theorem div_le_roundHalfEven (num den : Nat) : num / den ≤ roundHalfEven num den := by
  unfold roundHalfEven
  dsimp only
  split
  · exact Nat.le_refl _
  · split
    · omega
    · split <;> omega

/-- Rounding never goes beyond the next whole number. -/
theorem roundHalfEven_le (num den : Nat) : roundHalfEven num den ≤ num / den + 1 := by
  unfold roundHalfEven
  dsimp only
  split
  · omega
  · split
    · omega
    · split <;> omega

/-- A quotient that is a whole number is kept. -/
theorem roundHalfEven_mul_self (n : Nat) {den : Nat} (h : 0 < den) :
    roundHalfEven (n * den) den = n := by
  simp [roundHalfEven, Nat.mul_div_cancel n h, h]

end StyleScaffold
