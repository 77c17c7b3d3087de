/-!
# Digits

The digits of a base up to thirty-six are the ASCII digits and, above nine, the
letters in either case.  A run of digits stands for a number with its most
significant digit first.

**Limit.** A whole number is read from decimal digits, or written with them, only if
they are not too many.
-/

namespace CqlWorkload.Digit

def value? (base : Nat) (c : Char) : Option Nat :=
  let found :=
    if c.isDigit then some (c.toNat - '0'.toNat)
    else if c.isAlpha then some (c.toLower.toNat - 'a'.toNat + 10)
    else none
  found.filter (· < base)

def isBinary (c : Char) : Bool := c == '0' || c == '1'

def isOctal (c : Char) : Bool := '0' ≤ c && c ≤ '7'

def isHexadecimal (c : Char) : Bool :=
  c.isDigit || ('a' ≤ c && c ≤ 'f') || ('A' ≤ c && c ≤ 'F')

/-- The number that digits with these values stand for. -/
def ofValues (base : Nat) (values : List Nat) : Nat :=
  values.foldl (fun n d => base * n + d) 0

/-- The number that a run of digits stands for, if all of them are digits of the base. -/
def number? (base : Nat) (cs : List Char) : Option Nat :=
  (cs.mapM (value? base)).map (ofValues base)

/-- The decimal digits that a whole number may have in a text. -/
def limit : Nat := 4300

/-- The complaint about a number with more digits, and what else is said about it. -/
def tooMany (detail : String) : String :=
  "Exceeds the limit (4300 digits) for integer string conversion" ++ detail ++
    "; use sys.set_int_max_str_digits() to increase the limit"

/-- Are the decimal digits of a number few enough to be written? -/
def isShort (n : Nat) : Bool := (Nat.toDigits 10 n).length ≤ limit

/-- The decimal digits of a number, or the complaint about too many of them. -/
def written (n : Nat) : Except String (List Char) :=
  if isShort n then .ok (Nat.toDigits 10 n) else .error (tooMany "")

/-- The number that the digits in a text stand for. -/
def number (base : Nat) (cs : List Char) : Nat := ofValues base (cs.filterMap (value? base))

end CqlWorkload.Digit
