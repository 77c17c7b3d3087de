import CqlWorkload.Number.Digit
import CqlWorkload.Number.Double
import CqlWorkload.Text.Word

/-!
# Reading numbers from text

A number in text has a sign, digits with or without a point, and an exponent,
or is one of the words for infinity and `nan` in any case.  Around that grammar
there are two readers: one for statistics, which takes digits of every script
and single underscores between digits, and one for configured numbers, which
takes ASCII digits and drops single underscores anywhere inside.
-/

namespace CqlWorkload.NumberText

/-- The leading digits of a text, and what follows. -/
def takeDigits : List Char → List Nat × List Char
  | [] => ([], [])
  | c :: rest =>
    match Digit.value? 10 c with
    | some d => (d :: (takeDigits rest).1, (takeDigits rest).2)
    | none => ([], c :: rest)

/-- The number that a run of digits stands for. -/
def digitsValue (digits : List Nat) : Nat :=
  Digit.ofValues 10 digits

/-- A sign at the front: is it negative, and what follows? -/
def takeSign : List Char → Bool × List Char
  | '-' :: rest => (true, rest)
  | '+' :: rest => (false, rest)
  | cs => (false, cs)

/-- An exponent up to the end of the text; no exponent is zero. -/
def exponent? : List Char → Option Int
  | [] => some 0
  | c :: rest =>
    if c.toLower = 'e' then
      match takeSign rest with
      | (negative, rest) =>
        match takeDigits rest with
        | ([], _) => none
        | (digits, []) =>
          let size : Int := digitsValue digits
          some (if negative then -size else size)
        | (_, _ :: _) => none
    else none

/-- The digits on both sides of a point, and what follows them. -/
def mantissa? (cs : List Char) : Option (List Nat × List Nat × List Char) :=
  match takeDigits cs with
  | (whole, '.' :: rest) =>
    match takeDigits rest with
    | (places, rest) => if whole.isEmpty && places.isEmpty then none else some (whole, places, rest)
  | (whole, rest) => if whole.isEmpty then none else some (whole, [], rest)

/-- A number without anything around it. -/
def double? (cs : List Char) : Option Double :=
  match takeSign cs with
  | (negative, cs) =>
    let word := String.ofList (cs.map Char.toLower)
    if word = "inf" || word = "infinity" then some (.infinite negative)
    else if word = "nan" then some .nan
    else
      match mantissa? cs with
      | none => none
      | some (whole, places, rest) =>
        (exponent? rest).map fun exponent =>
          .ofDecimal negative (digitsValue (whole ++ places)) (exponent - places.length)

/-- Blanks that may stand around a number. -/
def isSpacing (c : Char) : Bool :=
  Text.isBlank c && !(0x1c ≤ c.toNat && c.toNat ≤ 0x1f)

/-- Remove underscores, each of which has to stand between two digits. -/
def joinDigits? : Bool → List Char → Option (List Char)
  | _, [] => some []
  | afterDigit, '_' :: next :: rest =>
    if afterDigit && next.isDigit then (joinDigits? true rest).map (next :: ·) else none
  | _, c :: rest =>
    if c = '_' then none else (joinDigits? c.isDigit rest).map (c :: ·)

/-- A digit of any script as the ASCII digit of its value. -/
def asciiDigit (c : Char) : Char :=
  match Text.digitValue? c with
  | some d => Char.ofNat ('0'.toNat + d)
  | none => c

/-- The number that the text of a statistic stands for. -/
def statistic? (s : String) : Option Double :=
  (joinDigits? false ((Text.trimWhile isSpacing s.toList).map asciiDigit)).bind double?

/-- Does a text hold two underscores in a row? -/
def hasDoubleUnderscore : List Char → Bool
  | '_' :: '_' :: _ => true
  | [] => false
  | _ :: rest => hasDoubleUnderscore rest

/-- The number that the text of a configured value stands for. -/
def configured? (s : String) : Option Double :=
  match double? (Text.trimWhile isSpacing s.toList) with
  | some x => some x
  | none =>
    let cs := s.toList
    if cs.head? = some '_' || cs.getLast? = some '_' || hasDoubleUnderscore cs then none
    else double? (cs.filter (· != '_'))

end CqlWorkload.NumberText
