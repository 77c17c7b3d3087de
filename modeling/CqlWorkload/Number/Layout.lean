import CqlWorkload.Number.Shortest

/-!
# Layout of numbers in text

A `FloatLayout` fixes how the shortest decimal of a double is written: which
exponents are written positionally, how an exponent looks, and what stands for
the numbers that have no digits.  Each document format has one such record.
-/

namespace CqlWorkload

/-- The decisions that a text format makes about doubles. -/
structure FloatLayout where
  /-- Least exponent of the leading digit that is written positionally. -/
  leastPositional : Int
  /-- Width to which an exponent is filled with zeros. -/
  exponentWidth : Nat
  /-- What follows a mantissa of one digit. -/
  wholeMantissa : String
  infinity : String
  negativeInfinity : String
  nan : String

namespace FloatLayout

/-- Report text: `1e-05`, `1e+16`, `inf`. -/
def plain : FloatLayout := ⟨-4, 2, "", "inf", "-inf", "nan"⟩

/-- Saved schema text: `0.00001`, `1e-6`; what is not finite is dropped. -/
def saved : FloatLayout := ⟨-5, 1, "", "null", "null", "null"⟩

/-- Workload text in JSON. -/
def json : FloatLayout := ⟨-4, 2, "", "Infinity", "-Infinity", "NaN"⟩

/-- Workload text in YAML, where a mantissa always has a point. -/
def yaml : FloatLayout := ⟨-4, 2, ".0", ".inf", "-.inf", ".nan"⟩

/-- First exponent of the leading digit that is no longer written positionally. -/
def firstScientific : Int := 16

/-- The decimal digits of a number as text. -/
def digitsText (n : Nat) : String :=
  String.ofList (Nat.toDigits 10 n)

/-- Digits with zeros in front up to the given width. -/
def padded (width : Nat) (n : Nat) : String :=
  let digits := Nat.toDigits 10 n
  String.ofList (List.replicate (width - digits.length) '0' ++ digits)

/-- Digits with a point and at least one digit on both of its sides; `places`
counts the digits behind the point. -/
def positional (digits : List Char) (places : Int) : String :=
  if places ≤ 0 then
    String.ofList (digits ++ List.replicate places.natAbs '0' ++ ['.', '0'])
  else
    let filled := List.replicate (places.natAbs + 1 - digits.length) '0' ++ digits
    let cut := filled.length - places.natAbs
    String.ofList (filled.take cut ++ '.' :: filled.drop cut)

/-- One digit, the others behind a point, and the exponent with its sign. -/
def scientific (layout : FloatLayout) (digits : List Char) (leading : Int) : String :=
  let mantissa := match digits with
    | [] => ""
    | [d] => String.ofList [d] ++ layout.wholeMantissa
    | d :: rest => String.ofList (d :: '.' :: rest)
  let sign := if leading < 0 then "-" else "+"
  mantissa ++ "e" ++ sign ++ padded layout.exponentWidth leading.natAbs

def decimal (layout : FloatLayout) (d : Decimal) : String :=
  let digits := Nat.toDigits 10 d.digits
  let leading := d.exponent + digits.length - 1
  if d.digits ≠ 0 ∧ (leading < layout.leastPositional ∨ firstScientific ≤ leading) then
    scientific layout digits leading
  else positional digits (-d.exponent)

def render (layout : FloatLayout) : Double → String
  | .nan => layout.nan
  | .signed negative rank =>
    if rank.val = Double.infinityRank then
      if negative then layout.negativeInfinity else layout.infinity
    else
      (if negative then "-" else "") ++ layout.decimal (.shortest rank.val)

end FloatLayout

def Double.text (x : Double) : String := FloatLayout.plain.render x

end CqlWorkload
