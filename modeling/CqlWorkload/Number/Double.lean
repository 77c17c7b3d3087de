/-!
# Binary64 numbers

This module holds the double-precision numbers that statistics, timeouts and
multipliers are made of, as exact values.

**Representation.** A number is `nan` or a sign together with a *rank*: the
position of its magnitude in the increasing list of all magnitudes, zero
first and infinity last.  A rank below `2 ^ 52` counts units of
`2 ^ (-1074)`; above that every `2 ^ 52` ranks double the spacing.  Ordering
magnitudes is therefore ordering ranks.

**Operations.** Every operation forms the exact rational result and rounds it
once, to the nearest magnitude and on a tie to the even rank.
-/

namespace CqlWorkload

def twoTo (exponent : Nat) : Nat := Nat.pow 2 exponent

def tenTo (exponent : Nat) : Nat := Nat.pow 10 exponent

/-- Rank of infinity: one more than the rank of the largest finite magnitude. -/
def Double.infinityRank : Nat := 2047 * twoTo 52

/-- A binary64 number; both zeros are kept apart and there is one `nan`. -/
inductive Double
  | nan
  | signed (negative : Bool) (rank : Fin (Double.infinityRank + 1))
  deriving DecidableEq

namespace Double

/-- Number of units of `2 ^ (-1074)` in the finite magnitude of a rank. -/
def unitsOf (rank : Nat) : Nat :=
  if rank < twoTo 52 then rank
  else (twoTo 52 + rank % twoTo 52) * twoTo (rank / twoTo 52 - 1)

/-- The quotient rounded to a whole number, a half going to the even one. -/
def roundHalfEven (num den : Nat) : Nat :=
  let whole := num / den
  let twice := 2 * (num % den)
  if twice < den then whole
  else if den < twice then whole + 1
  else whole + whole % 2

/-- Rank of the magnitude nearest to `num / den`, for a positive `den`. -/
def nearestRank (num den : Nat) : Nat :=
  let scaled := num * twoTo 1074
  let shift := Nat.log2 (scaled / den) - 52
  min (shift * twoTo 52 + roundHalfEven scaled (den * twoTo shift)) infinityRank

theorem nearestRank_lt (num den : Nat) : nearestRank num den < infinityRank + 1 :=
  Nat.lt_succ_of_le (Nat.min_le_right _ _)

/-- The number nearest to `num / den` with the given sign. -/
def nearest (negative : Bool) (num den : Nat) : Double :=
  .signed negative ⟨nearestRank num den, nearestRank_lt num den⟩

def infinite (negative : Bool) : Double :=
  .signed negative ⟨infinityRank, Nat.lt_succ_self _⟩

def zero (negative : Bool) : Double :=
  .signed negative ⟨0, Nat.succ_pos _⟩

def ofInt (n : Int) : Double :=
  nearest (decide (n < 0)) n.natAbs 1

def ofBool (b : Bool) : Double :=
  ofInt (if b then 1 else 0)

def isFinite : Double → Bool
  | .nan => false
  | .signed _ rank => decide (rank.val < infinityRank)

def isNaN : Double → Bool
  | .nan => true
  | .signed _ _ => false

/-- Place of a number other than `nan` on the line; both zeros are at `0`. -/
def place : Double → Int
  | .nan => 0
  | .signed negative rank => if negative then -(rank.val : Int) else rank.val

/-- Numeric equality: `nan` equals nothing and the zeros are equal. -/
def same (x y : Double) : Bool :=
  !x.isNaN && !y.isNaN && x.place == y.place

/-- Numeric order, false whenever `nan` takes part. -/
def less (x y : Double) : Bool :=
  !x.isNaN && !y.isNaN && decide (x.place < y.place)

def isZero (x : Double) : Bool :=
  x.same (zero false)

/-- Exact value of a finite number, in units of `2 ^ (-1074)`. -/
def units : Double → Int
  | .nan => 0
  | .signed negative rank =>
    if negative then -(unitsOf rank.val : Int) else unitsOf rank.val

/-- The whole number that a finite number is equal to, if it is one. -/
def toInt? (x : Double) : Option Int :=
  if x.isFinite && x.units % twoTo 1074 == 0 then some (x.units / twoTo 1074) else none

/-- Sum, rounded once. -/
def add : Double → Double → Double
  | .nan, _ => .nan
  | _, .nan => .nan
  | .signed s a, .signed t b =>
    if a.val = infinityRank then
      if b.val = infinityRank && s != t then .nan else .signed s a
    else if b.val = infinityRank then .signed t b
    else
      let total := (Double.signed s a).units + (Double.signed t b).units
      if total = 0 then zero (s && t)
      else nearest (decide (total < 0)) total.natAbs (twoTo 1074)

/-- Product, rounded once. -/
def mul : Double → Double → Double
  | .nan, _ => .nan
  | _, .nan => .nan
  | .signed s a, .signed t b =>
    if a.val = infinityRank || b.val = infinityRank then
      if a.val = 0 || b.val = 0 then .nan else infinite (s != t)
    else nearest (s != t) (unitsOf a.val * unitsOf b.val) (twoTo 2148)

/-- Quotient, rounded once; a quotient by zero is infinite, or `nan` for zero by zero. -/
def div : Double → Double → Double
  | .nan, _ => .nan
  | _, .nan => .nan
  | .signed s a, .signed t b =>
    if a.val = infinityRank then
      if b.val = infinityRank then .nan else infinite (s != t)
    else if b.val = infinityRank then zero (s != t)
    else if b.val = 0 then
      if a.val = 0 then .nan else infinite (s != t)
    else nearest (s != t) (unitsOf a.val) (unitsOf b.val)

/-- Why a number has no whole part. -/
inductive NotWhole
  | infinite
  | nan
  deriving DecidableEq

/-- A whole number drawn from the exact value of a finite number. -/
def wholeBy (pick : Int → Int → Int) (x : Double) : Except NotWhole Int :=
  if x.isNaN then .error .nan
  else if x.isFinite then .ok (pick x.units (twoTo 1074))
  else .error .infinite

/-- The whole number next to `x` towards zero. -/
def truncate : Double → Except NotWhole Int := wholeBy Int.tdiv

/-- The greatest whole number not above `x`. -/
def floor : Double → Except NotWhole Int := wholeBy Int.fdiv

/-- The number nearest to `digits * 10 ^ exponent`.  Exponents far outside the
range of magnitudes give infinity and zero at once. -/
def ofDecimal (negative : Bool) (digits : Nat) (exponent : Int) : Double :=
  let length : Int := (Nat.toDigits 10 digits).length
  if digits = 0 then zero negative
  else if exponent + length > 400 then infinite negative
  else if exponent + length < -400 then zero negative
  else if exponent < 0 then nearest negative digits (tenTo exponent.natAbs)
  else nearest negative (digits * tenTo exponent.natAbs) 1

end Double
end CqlWorkload
