import CqlWorkload.Number.Digit
import CqlWorkload.Number.Layout
import CqlWorkload.Text.Quoted
import CqlWorkload.Value

/-!
# Text of values

`Value.plainText` is how a value reads inside a message or a statement, and
`Value.shown` how it reads as a part of a list or mapping: there a text stands
in quotes and a moment names its parts.

**Limit.** A value has no text if a whole number in it has too many digits
(`Value.writtenText`).
-/

namespace CqlWorkload

/-- Digits of a whole number with its sign. -/
def intText (n : Int) : String :=
  (if n < 0 then "-" else "") ++ FloatLayout.digitsText n.natAbs

namespace Clock

/-- Distance from universal time as `+hh:mm`. -/
def zoneText (minutes : Int) : String :=
  (if minutes < 0 then "-" else "+") ++ FloatLayout.padded 2 (minutes.natAbs / 60) ++ ":" ++
    FloatLayout.padded 2 (minutes.natAbs % 60)

def text (c : Clock) : String :=
  FloatLayout.padded 2 c.hour ++ ":" ++ FloatLayout.padded 2 c.minute ++ ":" ++
    FloatLayout.padded 2 c.second ++
    (if c.micro = 0 then "" else "." ++ FloatLayout.padded 6 c.micro) ++
    (match c.zone with | none => "" | some minutes => zoneText minutes)

/-- Parts of a time of day behind the date, the last zeros left out. -/
def parts (c : Clock) : List Nat :=
  [c.hour, c.minute] ++
    if c.micro = 0 then (if c.second = 0 then [] else [c.second]) else [c.second, c.micro]

/-- A distance in minutes by its named parts. -/
def shiftText (minutes : Int) : String :=
  let days := Int.fdiv (minutes * 60) 86400
  let seconds := Int.fmod (minutes * 60) 86400
  let pieces := (if days = 0 then [] else ["days=" ++ intText days]) ++
    (if seconds = 0 then [] else ["seconds=" ++ intText seconds])
  "datetime.timedelta(" ++ Text.joinWith ", " pieces ++ ")"

/-- The zone as the last part of a moment. -/
def zonePart : Int → String
  | 0 => "tzinfo=datetime.timezone.utc"
  | minutes => "tzinfo=datetime.timezone(" ++ shiftText minutes ++ ")"

end Clock

namespace Moment

/-- A date, or a date and a time of day, as it is written. -/
def text (m : Moment) : String :=
  let date := FloatLayout.padded 4 m.year ++ "-" ++ FloatLayout.padded 2 m.month ++ "-" ++
    FloatLayout.padded 2 m.day
  match m.clock with
  | none => date
  | some c => date ++ " " ++ c.text

/-- A moment by its named parts. -/
def shown (m : Moment) : String :=
  let date := [m.year, m.month, m.day].map FloatLayout.digitsText
  match m.clock with
  | none => "datetime.date(" ++ Text.joinWith ", " date ++ ")"
  | some c =>
    let zone := match c.zone with | none => [] | some minutes => [Clock.zonePart minutes]
    "datetime.datetime(" ++
      Text.joinWith ", " (date ++ c.parts.map FloatLayout.digitsText ++ zone) ++ ")"

end Moment

namespace Value

mutual

/-- Text of a value as a part of another one. -/
def shown : Value → String
  | .null => "None"
  | .bool b => if b then "True" else "False"
  | .int n => intText n
  | .float x => x.text
  | .text s => Text.quoted s
  | .moment m => m.shown
  | .list items => "[" ++ Text.joinWith ", " (shownItems items) ++ "]"
  | .map entries => "\x7b" ++ Text.joinWith ", " (shownEntries entries) ++ "\x7d"

def shownItems : List Value → List String
  | [] => []
  | item :: rest => shown item :: shownItems rest

def shownEntries : List (Value × Value) → List String
  | [] => []
  | (key, value) :: rest => (shown key ++ ": " ++ shown value) :: shownEntries rest

end

/-- Text of a value on its own. -/
def plainText : Value → String
  | .text s => s
  | .moment m => m.text
  | value => value.shown

mutual

/-- Are the digits of every whole number in a value few enough to be written? -/
def isWritable : Value → Bool
  | .int n => Digit.isShort n.natAbs
  | .list items => itemsWritable items
  | .map entries => entriesWritable entries
  | _ => true

def itemsWritable : List Value → Bool
  | [] => true
  | item :: rest => isWritable item && itemsWritable rest

def entriesWritable : List (Value × Value) → Bool
  | [] => true
  | (key, value) :: rest => isWritable key && isWritable value && entriesWritable rest

end

/-- Text of a value on its own, or the complaint about a number in it. -/
def writtenText (value : Value) : Except String String :=
  if value.isWritable then .ok value.plainText else .error (Digit.tooMany "")

end Value
end CqlWorkload
