import CqlWorkload.Number.Digit
import CqlWorkload.Yaml.Stamp

/-!
# Tags

The tag of a node says what kind of value it stands for.  A plain scalar without a
tag gets the tag of the first form that its text has; a text of no form is a text.

**Numbers.** Whole numbers are binary, octal, decimal, hexadecimal or to the base
sixty, and doubles have a point.  Underscores between digits do not count.
-/

namespace CqlWorkload.Yaml

/-- The kinds of nodes; any other tag is kept as it is written. -/
inductive Tag
  | null
  | truth
  | whole
  | double
  | stamp
  | text
  | list
  | mapping
  | merge
  | default
  | bytes
  | set
  /-- The tag of a list of pairs, ordered by their keys or not. -/
  | pairs
  | other (uri : String)
  /-- The tag of a node that is not built yet. -/
  | unfinished
  deriving DecidableEq

namespace Tag

/-- What the standard tags begin with. -/
def standard : String := "tag:yaml.org,2002:"

/-- The tag that is written in full. -/
def ofUri (uri : String) : Tag :=
  match (Text.after? standard.toList uri.toList).map String.ofList with
  | some "null" => .null
  | some "bool" => .truth
  | some "int" => .whole
  | some "float" => .double
  | some "timestamp" => .stamp
  | some "str" => .text
  | some "seq" => .list
  | some "map" => .mapping
  | some "merge" => .merge
  | some "value" => .default
  | some "binary" => .bytes
  | some "set" => .set
  | some "omap" | some "pairs" => .pairs
  | _ => .other uri

/-- The words for nothing. -/
def nullWords : List String := ["", "~", "null", "Null", "NULL"]

def trueWords : List String :=
  ["yes", "Yes", "YES", "true", "True", "TRUE", "on", "On", "ON"]

def falseWords : List String :=
  ["no", "No", "NO", "false", "False", "FALSE", "off", "Off", "OFF"]

def infinityWords : List String := [".inf", ".Inf", ".INF"]

def nanWords : List String := [".nan", ".NaN", ".NAN"]

/-- What follows a sign at the front, if there is one. -/
def unsigned : List Char → List Char
  | '-' :: rest => rest
  | '+' :: rest => rest
  | cs => cs

/-- Is the text not empty and made of characters of a class and underscores? -/
def isRun (p : Char → Bool) (cs : List Char) : Bool :=
  !cs.isEmpty && cs.all fun c => p c || c == '_'

/-- Does the text begin with a character of a class and go on with digits and
underscores? -/
def isDigitRun (p : Char → Bool) : List Char → Bool
  | [] => false
  | c :: rest => p c && rest.all fun c => c.isDigit || c == '_'

/-- A number below sixty, of one or two digits. -/
def isSixtieth : List Char → Bool
  | [a] => a.isDigit
  | [a, b] => '0' ≤ a && a ≤ '5' && b.isDigit
  | _ => false

/-- A number to the base sixty, with at least two places. -/
def isSexagesimal (first : Char → Bool) (cs : List Char) : Bool :=
  match Text.splitAt ':' cs with
  | head :: next :: places => isDigitRun first head && (next :: places).all isSixtieth
  | _ => false

/-- Is the first digit of a decimal number above zero? -/
def isLeading (c : Char) : Bool := c.isDigit && c != '0'

/-- Is a text the form of a whole number? -/
def isWhole (cs : List Char) : Bool :=
  match unsigned cs with
  | ['0'] => true
  | '0' :: 'b' :: rest => isRun Digit.isBinary rest
  | '0' :: 'x' :: rest => isRun Digit.isHexadecimal rest
  | '0' :: rest => isRun Digit.isOctal rest
  | cs => isDigitRun isLeading cs || isSexagesimal isLeading cs

/-- Nothing, or an exponent with its sign. -/
def isExponent : List Char → Bool
  | [] => true
  | e :: sign :: rest =>
    (e == 'e' || e == 'E') && (sign == '-' || sign == '+') && !rest.isEmpty &&
      rest.all Char.isDigit
  | _ => false

/-- Digits and underscores, and then nothing or an exponent. -/
def isFraction (cs : List Char) : Bool :=
  isExponent (cs.dropWhile fun c => c.isDigit || c == '_')

/-- Is a text the form of a double? -/
def isDouble (cs : List Char) : Bool :=
  let size := unsigned cs
  let head := size.takeWhile (· != '.')
  let tail := (size.dropWhile (· != '.')).drop 1
  let pointed := size.contains '.'
  (pointed && isDigitRun Char.isDigit head && isFraction tail) ||
    (match cs with
      | '.' :: c :: rest => c.isDigit && isFraction rest
      | _ => false) ||
    (pointed && isSexagesimal Char.isDigit head && tail.all fun c => c.isDigit || c == '_') ||
    infinityWords.contains (String.ofList size) || nanWords.contains (String.ofList cs)

/-- The tag of a plain scalar. -/
def ofPlain (s : String) : Tag :=
  let cs := s.toList
  if nullWords.contains s then .null
  else if trueWords.contains s || falseWords.contains s then .truth
  else if isDouble cs then .double
  else if isWhole cs then .whole
  else if s = "<<" then .merge
  else if s = "=" then .default
  else if Stamp.isStamp cs then .stamp
  else .text

/-- A text without one line feed at its very end. -/
def withoutFeed (cs : List Char) : List Char :=
  if cs.getLast? = some '\n' then cs.dropLast else cs

/-- The tag of any scalar that is marked to have the one of its form.  A line feed at the
very end does not count, and the indicators of properties have a tag of their own. -/
def ofForm (s : String) : Tag :=
  let form := String.ofList (withoutFeed s.toList)
  if s = "\n" then .text
  else if ["!", "&", "*"].contains form then .other (standard ++ "yaml")
  else ofPlain form

/-- Is the node built to its end? -/
def isFinished : Tag → Bool
  | .unfinished => false
  | _ => true

/-- Are the values of the tag among those of this library? -/
def isSupported : Tag → Bool
  | .bytes | .set | .pairs => false
  | _ => true

end Tag
end CqlWorkload.Yaml
