import CqlWorkload.Number.Digit
import CqlWorkload.Value

/-!
# Reading JSON

The reader takes a whole text and gives its value, or nothing when the text is
not JSON.  A number without point and exponent is a whole number of any size,
the three names for infinity and `nan` are numbers too, and of repeated keys
the last value counts, at the place of the first.  Lists and mappings that are
not empty may be nested to a given depth.
-/

namespace CqlWorkload.Json

/-- What is left of a text after its blanks. -/
def skipBlank : List Char → List Char
  | [] => []
  | c :: rest =>
    if c = ' ' || c = '\t' || c = '\n' || c = '\r' then skipBlank rest else c :: rest

/-- Value of four hexadecimal digits. -/
def unit? (a b c d : Char) : Option Nat := Digit.number? 16 [a, b, c, d]

/-- The character behind a backslash that a short escape stands for. -/
def shortEscape? (c : Char) : Option Char :=
  if c = '"' || c = '\\' || c = '/' then some c
  else if c = 'b' then some '\x08'
  else if c = 'f' then some '\x0c'
  else if c = 'n' then some '\n'
  else if c = 'r' then some '\r'
  else if c = 't' then some '\t'
  else none

/-- The characters of a text up to its closing quote, and what follows. -/
def stringBody : List Char → Option (List Char × List Char)
  | [] => none
  | '"' :: rest => some ([], rest)
  | '\\' :: 'u' :: a :: b :: c :: d :: rest =>
    match unit? a b c d with
    | none => none
    | some high =>
      if 0xd800 ≤ high && high < 0xdc00 then
        match rest with
        | '\\' :: 'u' :: e :: f :: g :: h :: rest =>
          match unit? e f g h with
          | none => none
          | some low =>
            if 0xdc00 ≤ low && low < 0xe000 then
              (stringBody rest).map fun found =>
                (Char.ofNat (0x10000 + (high - 0xd800) * 0x400 + (low - 0xdc00)) :: found.1,
                  found.2)
            else none
        | _ => none
      else if 0xdc00 ≤ high && high < 0xe000 then none
      else (stringBody rest).map fun found => (Char.ofNat high :: found.1, found.2)
  | '\\' :: c :: rest =>
    match shortEscape? c with
    | none => none
    | some c => (stringBody rest).map fun found => (c :: found.1, found.2)
  | c :: rest =>
    if c.toNat < 0x20 || c = '\\' then none
    else (stringBody rest).map fun found => (c :: found.1, found.2)

/-- The leading digits of a text and what follows them. -/
def takeDigits (cs : List Char) : List Char × List Char :=
  (cs.takeWhile Char.isDigit, cs.dropWhile Char.isDigit)

/-- Digits behind a point; `none` if the point has no digits. -/
def fraction? : List Char → Option (List Char × List Char)
  | '.' :: rest =>
    match takeDigits rest with
    | ([], _) => none
    | found => some found
  | rest => some ([], rest)

/-- Sign and digits of an exponent. -/
def exponentDigits? (rest : List Char) : Option (Bool × List Char × List Char) :=
  let signed := match rest with
    | '+' :: rest => (false, rest)
    | '-' :: rest => (true, rest)
    | rest => (false, rest)
  match takeDigits signed.2 with
  | ([], _) => none
  | (digits, rest) => some (signed.1, digits, rest)

/-- An exponent, if one follows; `none` if it has no digits. -/
def exponent? : List Char → Option (Option Int × List Char)
  | c :: rest =>
    if c = 'e' || c = 'E' then
      (exponentDigits? rest).map fun found =>
        let size : Int := Digit.number 10 found.2.1
        (some (if found.1 then -size else size), found.2.2)
    else some (none, c :: rest)
  | [] => some (none, [])

/-- Most digits that a whole number may have. -/
def digitLimit : Nat := 4300

/-- A number, after its sign. -/
def number? (negative : Bool) (cs : List Char) : Option (Value × List Char) :=
  let whole := match cs with
    | '0' :: rest => (['0'], rest)
    | cs => takeDigits cs
  if whole.1.isEmpty then none
  else
    match fraction? whole.2 with
    | none => none
    | some (places, rest) =>
      match exponent? rest with
      | none => none
      | some (none, rest) =>
        if places.isEmpty then
          if digitLimit < whole.1.length then none
          else
            let n : Int := Digit.number 10 whole.1
            some (.int (if negative then -n else n), rest)
        else
          some (.float (.ofDecimal negative (Digit.number 10 (whole.1 ++ places)) (-places.length)),
            rest)
      | some (some size, rest) =>
        some (.float (.ofDecimal negative (Digit.number 10 (whole.1 ++ places))
          (size - places.length)), rest)

/-- Remove an exact beginning. -/
def literal? : List Char → List Char → Option (List Char)
  | [], cs => some cs
  | _ :: _, [] => none
  | p :: ps, c :: cs => if p = c then literal? ps cs else none

/-- A value without parts. -/
def scalar? (cs : List Char) : Option (Value × List Char) :=
  match cs with
  | '"' :: rest => (stringBody rest).map fun found => (.text (String.ofList found.1), found.2)
  | '-' :: rest =>
    match literal? "Infinity".toList rest with
    | some rest => some (.float (.infinite true), rest)
    | none => number? true rest
  | 'n' :: rest => (literal? "ull".toList rest).map fun rest => (.null, rest)
  | 't' :: rest => (literal? "rue".toList rest).map fun rest => (.bool true, rest)
  | 'f' :: rest => (literal? "alse".toList rest).map fun rest => (.bool false, rest)
  | 'N' :: rest => (literal? "aN".toList rest).map fun rest => (.float .nan, rest)
  | 'I' :: rest =>
    (literal? "nfinity".toList rest).map fun rest => (.float (.infinite false), rest)
  | cs => number? false cs

mutual

/-- A value at the front of a text, `depth` more levels of nesting being allowed. -/
def value? : Nat → Nat → List Char → Option (Value × List Char)
  | 0, _, _ => none
  | fuel + 1, depth, cs =>
    match skipBlank cs with
    | '[' :: rest =>
      match skipBlank rest, depth with
      | ']' :: rest, _ => some (.list [], rest)
      | _, 0 => none
      | rest, depth + 1 =>
        (items? fuel depth rest).map fun found => (.list found.1, found.2)
    | '{' :: rest =>
      match skipBlank rest, depth with
      | '}' :: rest, _ => some (.map [], rest)
      | _, 0 => none
      | rest, depth + 1 =>
        (members? fuel depth [] rest).map fun found => (.map found.1, found.2)
    | cs => scalar? cs

/-- The items of a list that is not empty, with its closing bracket. -/
def items? : Nat → Nat → List Char → Option (List Value × List Char)
  | 0, _, _ => none
  | fuel + 1, depth, cs =>
    match value? fuel depth cs with
    | none => none
    | some (value, rest) =>
      match skipBlank rest with
      | ',' :: rest => (items? fuel depth rest).map fun found => (value :: found.1, found.2)
      | ']' :: rest => some ([value], rest)
      | _ => none

/-- The entries of a mapping that is not empty, with its closing brace, put on
top of the entries before them. -/
def members? : Nat → Nat → List (Value × Value) → List Char →
    Option (List (Value × Value) × List Char)
  | 0, _, _, _ => none
  | fuel + 1, depth, before, cs =>
    match skipBlank cs with
    | '"' :: rest =>
      match stringBody rest with
      | none => none
      | some (key, rest) =>
        match skipBlank rest with
        | ':' :: rest =>
          match value? fuel depth rest with
          | none => none
          | some (value, rest) =>
            let entries := Value.putKey before (.text (String.ofList key)) value
            match skipBlank rest with
            | ',' :: rest => members? fuel depth entries rest
            | '}' :: rest => some (entries, rest)
            | _ => none
        | _ => none
    | _ => none

end

/-- Depth to which a schema file may be nested. -/
def fileDepth : Nat := 200

def read? (depth : Nat) (s : String) : Option Value :=
  let cs := s.toList
  match value? (cs.length + 1) depth cs with
  | some (value, rest) => if (skipBlank rest).isEmpty then some value else none
  | none => none

end CqlWorkload.Json
