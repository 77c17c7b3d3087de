import CqlWorkload.Text.Case
import CqlWorkload.Yaml.Fault
import CqlWorkload.Yaml.Tag

/-!
# Values of scalars

A scalar is read by its tag.  The tag may have been written next to a text of another
form, so every reader can fail.
-/

namespace CqlWorkload.Yaml.Scalar

def withoutUnderscores (cs : List Char) : List Char := cs.filter (· != '_')

def isNegative (cs : List Char) : Bool := cs.head? == some '-'

/-- The number that one digit or more stand for to a base. -/
def digits? (base : Nat) (cs : List Char) : Option Nat :=
  if cs.isEmpty then none else Digit.number? base cs

/-- The letter that may announce digits to a base behind a zero. -/
def baseLetter? (base : Nat) : Option Char :=
  if base = 2 then some 'b' else if base = 8 then some 'o' else if base = 16 then some 'x'
  else none

/-- Digits without the zero and the letter that announce their base. -/
def withoutBase (base : Nat) : List Char → List Char
  | '0' :: c :: rest => if baseLetter? base = some c.toLower then rest else '0' :: c :: rest
  | cs => cs

/-- Digits to a base, blanks around them and a sign aside, or the complaint about them.
Only decimal digits can be too many. -/
def digits (base : Nat) (cs : List Char) : Except Fault Int :=
  let signed := (Text.trimWhile Text.isBlank cs).map NumberText.asciiDigit
  let run := (Tag.unsigned signed).takeWhile Char.isDigit
  if base = 10 ∧ Digit.limit < run.length then .error (.tooManyDigits run.length)
  else
    match digits? base (withoutBase base (Tag.unsigned signed)) with
    | some n => .ok (if isNegative signed then -(n : Int) else n)
    | none =>
      .error (.noValue ("invalid literal for int() with base " ++ FloatLayout.digitsText base ++
        ": " ++ Text.quoted (String.ofList cs)))

/-- Every place of a number to the base sixty, the last one first. -/
def places {α : Type} (read : List Char → Except Fault α) (cs : List Char) :
    Except Fault (List α) :=
  (·.reverse) <$> (Text.splitAt ':' cs).mapM read

/-- A whole number without its sign. -/
def size (cs : List Char) : Except Fault Int :=
  match cs with
  | [] => .error .noDigits
  | '0' :: 'b' :: rest => digits 2 rest
  | '0' :: 'x' :: rest => digits 16 rest
  | '0' :: _ => digits 8 cs
  | _ =>
    if cs.contains ':' then
      (·.foldr (fun place n => 60 * n + place) 0) <$> places (digits 10) cs
    else digits 10 cs

def whole (s : String) : Except Fault Int :=
  let cs := withoutUnderscores s.toList
  (fun n => if isNegative cs then -n else n) <$> size (Tag.unsigned cs)

/-- A number to the base ten, or the complaint about it. -/
def decimal (cs : List Char) : Except Fault Double :=
  match NumberText.statistic? (String.ofList cs) with
  | some x => .ok x
  | none =>
    .error (.noValue ("could not convert string to float: " ++ Text.quoted (String.ofList cs)))

/-- A number to the base sixty, from its last place on; `weight` is the weight of that
place, which has to be a double. -/
def sexagesimal (total : Double) (weight : Nat) : List Double → Except Fault Double
  | [] => .ok total
  | place :: rest =>
    if (Double.ofInt weight).isFinite then
      sexagesimal (total.add (place.mul (.ofInt weight))) (60 * weight) rest
    else .error .wideWeight

def double (s : String) : Except Fault Double :=
  let cs := (Text.lowerText (String.ofList (withoutUnderscores s.toList))).toList
  let sign := Double.ofInt (if isNegative cs then -1 else 1)
  let size := Tag.unsigned cs
  if cs.isEmpty then .error .noDigits
  else if size = ".inf".toList then .ok (.infinite (isNegative cs))
  else if size = ".nan".toList then .ok .nan
  else if size.contains ':' then do
    let found ← places decimal size
    return sign.mul (← sexagesimal (.ofInt 0) 1 found)
  else sign.mul <$> decimal size

def truth (s : String) : Except Fault Bool :=
  let word := Text.lowerText s
  if (Tag.trueWords.contains word) then .ok true
  else if Tag.falseWords.contains word then .ok false
  else .error (.noTruth word)

/-- The moment of a text that has the form of a time stamp, up to its end or up to the
line feed there. -/
def stamp (s : String) : Except Fault Moment :=
  match (Stamp.read? s.toList).or (Stamp.read? (Tag.withoutFeed s.toList)) with
  | none => .error .noStamp
  | some stamp => stamp.moment.mapError .noValue

/-- Do characters stand for bytes, four for three of them?  The last ones may be filled up
with signs of equality, and characters of another kind do not count. -/
def isBase64 (place filled : Nat) : List Char → Bool
  | [] => place == 0
  | '=' :: rest =>
    if place < 2 then isBase64 place filled rest
    else 4 ≤ place + filled + 1 || isBase64 place (filled + 1) rest
  | c :: rest =>
    if c.isAlphanum || c == '+' || c == '/' then isBase64 ((place + 1) % 4) 0 rest
    else isBase64 place filled rest

/-- Null, which stands for bytes. -/
def bytes (s : String) : Except Fault Value :=
  if s.toList.all (fun c => c.toNat < 128) && isBase64 0 0 s.toList then .ok .null
  else .error .malformed

/-- The value of a scalar; merge and default marks have none. -/
def value (tag : Tag) (s : String) : Except Fault Value :=
  match tag with
  | .null => .ok .null
  | .truth => .bool <$> truth s
  | .whole => .int <$> whole s
  | .double => .float <$> double s
  | .stamp => .moment <$> stamp s
  | .text => .ok (.text s)
  | .bytes => bytes s
  | _ => .error .malformed

end CqlWorkload.Yaml.Scalar
