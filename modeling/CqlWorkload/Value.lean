import CqlWorkload.Number.Double

/-!
# Values

Configurations, replication settings and documents are built from values:
null, truth values, whole numbers of any size, doubles, texts, moments, lists
and mappings.  A mapping keeps the order of its entries and its keys may be
values of any kind without parts.

**Keys.** Two keys are the same when they are equal as values, numbers being
compared by their exact value whatever their kind, and moments of known zones by
their place in time.
-/

namespace CqlWorkload

/-- A time of day, with the distance from universal time in minutes if it is known. -/
structure Clock where
  hour : Nat
  minute : Nat
  second : Nat
  micro : Nat
  zone : Option Int
  deriving DecidableEq

/-- A date, with a time of day if it has one. -/
structure Moment where
  year : Nat
  month : Nat
  day : Nat
  clock : Option Clock
  deriving DecidableEq

namespace Moment

/-- The number of days between a fixed day and a date; a year is counted from March on. -/
def dayNumber (m : Moment) : Nat :=
  let year := if m.month ≤ 2 then m.year - 1 else m.year
  365 * year + year / 4 - year / 100 + year / 400 + (153 * ((m.month + 9) % 12) + 2) / 5 + m.day

/-- The microseconds of universal time between a fixed day and a moment of a known zone. -/
def instant? (m : Moment) : Option Int :=
  m.clock.bind fun c => c.zone.map fun zone =>
    (((m.dayNumber * 24 + c.hour) * 60 + c.minute - zone) * 60 + c.second) * 1000000 + c.micro

end Moment

inductive Value
  | null
  | bool (b : Bool)
  | int (n : Int)
  | float (x : Double)
  | text (s : String)
  | moment (m : Moment)
  | list (items : List Value)
  | map (entries : List (Value × Value))

namespace Value

instance : Inhabited Value := ⟨.null⟩

mutual

/-- Equality of values can be decided. -/
def decEq : (x y : Value) → Decidable (x = y)
  | .null, y =>
    match y with
    | .null => isTrue rfl
    | .bool _ | .int _ | .float _ | .text _ | .moment _ | .list _ | .map _ => isFalse nofun
  | .bool a, y =>
    match y with
    | .bool b => decidable_of_iff (a = b) ⟨congrArg _, fun h => by injection h⟩
    | .null | .int _ | .float _ | .text _ | .moment _ | .list _ | .map _ => isFalse nofun
  | .int a, y =>
    match y with
    | .int b => decidable_of_iff (a = b) ⟨congrArg _, fun h => by injection h⟩
    | .null | .bool _ | .float _ | .text _ | .moment _ | .list _ | .map _ => isFalse nofun
  | .float a, y =>
    match y with
    | .float b => decidable_of_iff (a = b) ⟨congrArg _, fun h => by injection h⟩
    | .null | .bool _ | .int _ | .text _ | .moment _ | .list _ | .map _ => isFalse nofun
  | .text a, y =>
    match y with
    | .text b => decidable_of_iff (a = b) ⟨congrArg _, fun h => by injection h⟩
    | .null | .bool _ | .int _ | .float _ | .moment _ | .list _ | .map _ => isFalse nofun
  | .moment a, y =>
    match y with
    | .moment b => decidable_of_iff (a = b) ⟨congrArg _, fun h => by injection h⟩
    | .null | .bool _ | .int _ | .float _ | .text _ | .list _ | .map _ => isFalse nofun
  | .list a, y =>
    match y with
    | .list b =>
      match decEqItems a b with
      | isTrue h => isTrue (congrArg _ h)
      | isFalse h => isFalse fun e => h (by injection e)
    | .null | .bool _ | .int _ | .float _ | .text _ | .moment _ | .map _ => isFalse nofun
  | .map a, y =>
    match y with
    | .map b =>
      match decEqEntries a b with
      | isTrue h => isTrue (congrArg _ h)
      | isFalse h => isFalse fun e => h (by injection e)
    | .null | .bool _ | .int _ | .float _ | .text _ | .moment _ | .list _ => isFalse nofun

def decEqItems : (xs ys : List Value) → Decidable (xs = ys)
  | [], [] => isTrue rfl
  | [], _ :: _ => isFalse nofun
  | _ :: _, [] => isFalse nofun
  | x :: xs, y :: ys =>
    match decEq x y, decEqItems xs ys with
    | isTrue h, isTrue t => isTrue (by rw [h, t])
    | isFalse h, _ => isFalse fun e => h (by injection e)
    | _, isFalse t => isFalse fun e => t (by injection e)

def decEqEntries : (xs ys : List (Value × Value)) → Decidable (xs = ys)
  | [], [] => isTrue rfl
  | [], _ :: _ => isFalse nofun
  | _ :: _, [] => isFalse nofun
  | (k, v) :: xs, (l, w) :: ys =>
    match decEq k l, decEq v w, decEqEntries xs ys with
    | isTrue h, isTrue g, isTrue t => isTrue (by rw [h, g, t])
    | isFalse h, _, _ => isFalse fun e => h (by injection e with p _; injection p)
    | _, isFalse g, _ => isFalse fun e => g (by injection e with p _; injection p)
    | _, _, isFalse t => isFalse fun e => t (by injection e)

end

instance : DecidableEq Value := decEq

/-- A number as an exact place on the line: a whole number, or a double that is
no whole number. -/
inductive Amount
  | whole (n : Int)
  | broken (x : Double)
  deriving DecidableEq

/-- The amount that a value counts as when it is compared with numbers. -/
def amount? : Value → Option Amount
  | .bool b => some (.whole (if b then 1 else 0))
  | .int n => some (.whole n)
  | .float x =>
    match x.toInt? with
    | some n => some (.whole n)
    | none => some (.broken x)
  | _ => none

/-- The place in time of a value, if it has one. -/
def instant? : Value → Option Int
  | .moment m => m.instant?
  | _ => none

/-- Are two values the same key?  A value that is neither a number nor a place in time
is compared as it is, and `nan` is the same as no number. -/
def sameKey (x y : Value) : Bool :=
  match x.amount?, y.amount? with
  | some (.broken a), some (.broken b) => a.same b
  | some a, some b => a == b
  | none, none =>
    match x.instant?, y.instant? with
    | some a, some b => a == b
    | _, _ => x == y
  | _, _ => false

/-- May the value be a key of a mapping? -/
def isKey : Value → Bool
  | .list _ | .map _ => false
  | _ => true

/-- Does the value count as something, as opposed to nothing, zero or empty? -/
def isTruthy : Value → Bool
  | .null => false
  | .bool b => b
  | .int n => n != 0
  | .float x => !x.isZero
  | .text s => s != ""
  | .moment _ => true
  | .list items => !items.isEmpty
  | .map entries => !entries.isEmpty

/-- Name of the kind of a value, as messages give it. -/
def kindName : Value → String
  | .null => "NoneType"
  | .bool _ => "bool"
  | .int _ => "int"
  | .float _ => "float"
  | .text _ => "str"
  | .moment m => if m.clock.isSome then "datetime" else "date"
  | .list _ => "list"
  | .map _ => "dict"

/-- Name of the kind of a value in messages about what it lacks. -/
def typeTitle : Value → String
  | .moment m => if m.clock.isSome then "datetime.datetime" else "datetime.date"
  | value => value.kindName

/-- The value under a text key among the entries of a mapping. -/
def lookup (entries : List (Value × Value)) (name : String) : Option Value :=
  match entries with
  | [] => none
  | (key, value) :: rest => if key = .text name then some value else lookup rest name

/-- Put a value under a key: at the place of the same key, or at the end. -/
def putKey (entries : List (Value × Value)) (key value : Value) : List (Value × Value) :=
  match entries with
  | [] => [(key, value)]
  | (old, there) :: rest =>
    if old.sameKey key then (old, value) :: rest else (old, there) :: putKey rest key value

def ofEntries (entries : List (String × Value)) : Value :=
  .map (entries.map fun entry => (.text entry.1, entry.2))

end Value
end CqlWorkload
