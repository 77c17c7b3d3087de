import CqlWorkload.Number.Reader
import CqlWorkload.Value.Text

/-!
# Time stamps

A time stamp is a date with or without a time of day.  A text may have the form
of one and still name a day that does not exist; reading the form and finding the
moment are therefore two steps.
-/

namespace CqlWorkload

/-- Distance from universal time as it is written. -/
inductive Stamp.Zone
  | universal
  | shift (negative : Bool) (hours minutes : Nat)

/-- Time of day as it is written. -/
structure Stamp.Time where
  hour : Nat
  minute : Nat
  second : Nat
  fraction : List Nat
  zone : Option Stamp.Zone

/-- A date and a time of day as they are written. -/
structure Stamp where
  year : Nat
  month : Nat
  day : Nat
  time : Option Stamp.Time

namespace Stamp

/-- A number of exactly so many digits, and what follows. -/
def digits? (count : Nat) (cs : List Char) : Option (Nat × List Char) :=
  let found := cs.take count
  if found.length = count && found.all Char.isDigit then
    some (NumberText.digitsValue (NumberText.takeDigits found).1, cs.drop count)
  else none

/-- A number of one or two digits, and what follows. -/
def shortNumber? (cs : List Char) : Option (Nat × List Char) :=
  match digits? 2 cs with
  | some found => some found
  | none => digits? 1 cs

/-- What follows a character at the front. -/
def after? (c : Char) (cs : List Char) : Option (List Char) := Text.after? [c] cs

def isGap (c : Char) : Bool := c == ' ' || c == '\t'

/-- What follows the letter or the gap between a date and a time of day. -/
def afterDate? : List Char → Option (List Char)
  | 'T' :: rest => some rest
  | 't' :: rest => some rest
  | c :: rest => if isGap c then some (rest.dropWhile isGap) else none
  | [] => none

/-- A zone up to the end of the text; no text is no zone. -/
def zone? (cs : List Char) : Option (Option Zone) :=
  if cs.isEmpty then some none
  else
    match cs.dropWhile isGap with
    | ['Z'] => some (some .universal)
    | sign :: rest =>
      if sign = '+' || sign = '-' then
        match shortNumber? rest with
        | none => none
        | some (hours, []) => some (some (.shift (sign == '-') hours 0))
        | some (hours, rest) =>
          match (after? ':' rest).bind (digits? 2) with
          | some (minutes, []) => some (some (.shift (sign == '-') hours minutes))
          | _ => none
      else none
    | [] => none

/-- The digits behind a point, and what follows. -/
def fraction (cs : List Char) : List Nat × List Char :=
  match cs with
  | '.' :: rest => NumberText.takeDigits rest
  | cs => ([], cs)

/-- A time of day up to the end of the text. -/
def time? (cs : List Char) : Option Time := do
  let (hour, cs) ← shortNumber? cs
  let (minute, cs) ← (after? ':' cs).bind (digits? 2)
  let (second, cs) ← (after? ':' cs).bind (digits? 2)
  let (places, cs) := fraction cs
  let zone ← zone? cs
  return ⟨hour, minute, second, places, zone⟩

/-- The time stamp that a text has the form of. -/
def read? (cs : List Char) : Option Stamp := do
  let (year, cs) ← digits? 4 cs
  let (month, cs) ← (after? '-' cs).bind shortNumber?
  let (day, cs) ← (after? '-' cs).bind shortNumber?
  if cs.isEmpty then return ⟨year, month, day, none⟩
  else
    let time ← (afterDate? cs).bind time?
    return ⟨year, month, day, some time⟩

/-- Is a text without a tag a time stamp?  A date alone has to be written in full. -/
def isStamp (cs : List Char) : Bool :=
  match read? cs with
  | none => false
  | some stamp => stamp.time.isSome || cs.length == 10

/-- Has the year a day more? -/
def isLeap (year : Nat) : Bool := year % 4 == 0 && (year % 100 != 0 || year % 400 == 0)

def daysOf (year month : Nat) : Nat :=
  if month = 2 then (if isLeap year then 29 else 28)
  else if month = 4 || month = 6 || month = 9 || month = 11 then 30
  else 31

/-- The first six places behind the point as a number. -/
def micros (places : List Nat) : Nat :=
  NumberText.digitsValue ((places ++ List.replicate 6 0).take 6)

/-- The distance from universal time in minutes. -/
def Zone.minutes : Zone → Except String Int
  | .universal => .ok 0
  | .shift negative hours minutes =>
    let size : Int := hours * 60 + minutes
    let distance := if negative then -size else size
    if size < 1440 then .ok distance
    else
      .error ("offset must be a timedelta strictly between -timedelta(hours=24) and " ++
        "timedelta(hours=24), not " ++ Clock.shiftText distance ++ ".")

/-- Refuse for a reason unless a condition holds. -/
def demand (condition : Bool) (reason : String) : Except String Unit :=
  if condition then .ok () else .error reason

/-- The moment that a time stamp names, or why there is none. -/
def moment (s : Stamp) : Except String Moment := do
  let zone ← match s.time.bind (·.zone) with
    | none => pure none
    | some zone => some <$> zone.minutes
  demand (1 ≤ s.year) "year 0 is out of range"
  demand (1 ≤ s.month && s.month ≤ 12) "month must be in 1..12"
  demand (1 ≤ s.day && s.day ≤ daysOf s.year s.month) "day is out of range for month"
  match s.time with
  | none => return ⟨s.year, s.month, s.day, none⟩
  | some t =>
    demand (t.hour ≤ 23) "hour must be in 0..23"
    demand (t.minute ≤ 59) "minute must be in 0..59"
    demand (t.second ≤ 59) "second must be in 0..59"
    return ⟨s.year, s.month, s.day, some ⟨t.hour, t.minute, t.second, micros t.fraction, zone⟩⟩

end Stamp
end CqlWorkload
