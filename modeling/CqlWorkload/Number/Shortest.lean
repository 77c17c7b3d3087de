import CqlWorkload.Number.Double

/-!
# Shortest decimals

The decimal that stands for a double in every document is the shortest one
that reads back to it, and of those the nearest.  This module finds it by
exact arithmetic: on the grid of decimals with one digit, two digits and so on
it tests the two neighbours of the number, and the first grid with a neighbour
that reads back wins.
-/

namespace CqlWorkload

/-- The decimal `digits * 10 ^ exponent`. -/
structure Decimal where
  digits : Nat
  exponent : Int
  deriving DecidableEq, Repr

namespace Decimal

/-- Exponent of the leading digit of the positive quotient `num / den`. -/
def leadingExponent (num den : Nat) : Int :=
  if den ≤ num then (Nat.toDigits 10 (num / den)).length - 1
  else -((Nat.toDigits 10 ((den + num - 1) / num - 1)).length : Int)

/-- The quotient `num / den` divided by `10 ^ exponent`, as a fraction. -/
def scaleDown (num den : Nat) (exponent : Int) : Nat × Nat :=
  if exponent < 0 then (num * tenTo exponent.natAbs, den)
  else (num, den * tenTo exponent.natAbs)

/-- The neighbours of a fraction among the whole numbers, nearer one first; of
two at the same distance the even one is first. -/
def neighbours (num den : Nat) : List Nat :=
  let low := num / den
  let twice := 2 * (num % den)
  if twice = 0 then [low]
  else if twice < den then [low, low + 1]
  else if den < twice then [low + 1, low]
  else if low % 2 = 0 then [low, low + 1] else [low + 1, low]

/-- Does `digits * 10 ^ exponent` read back to the magnitude of this rank? -/
def readsAs (rank : Nat) (exponent : Int) (digits : Nat) : Bool :=
  Double.ofDecimal false digits exponent == Double.signed false (Fin.ofNat _ rank)

/-- First grid that holds a neighbour reading back, from `length` digits on. -/
def searchFrom (rank num den : Nat) (leading : Int) : Nat → Nat → Option Decimal
  | 0, _ => none
  | fuel + 1, length =>
    let exponent := leading - length + 1
    let scaled := scaleDown num den exponent
    match (neighbours scaled.1 scaled.2).find? (readsAs rank exponent) with
    | some digits => some ⟨digits, exponent⟩
    | none => searchFrom rank num den leading fuel (length + 1)

/-- Move the zeros at the end of the digits into the exponent. -/
def trimZeros : Nat → Decimal → Decimal
  | 0, d => d
  | fuel + 1, d =>
    if d.digits ≠ 0 ∧ d.digits % 10 = 0 then trimZeros fuel ⟨d.digits / 10, d.exponent + 1⟩
    else d

/-- The shortest decimal that reads back to the finite magnitude of a rank.
Seventeen digits always suffice; the exact expansion stands behind them. -/
def shortest (rank : Nat) : Decimal :=
  if rank = 0 then ⟨0, 0⟩
  else
    let num := Double.unitsOf rank
    let den := twoTo 1074
    let found := searchFrom rank num den (leadingExponent num den) 17 1
    trimZeros 1100 (found.getD ⟨num * Nat.pow 5 1074, -1074⟩)

end Decimal
end CqlWorkload
