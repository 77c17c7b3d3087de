import CqlWorkload.Failure
import CqlWorkload.Number.Reader

/-!
# Ratios and moduli

Statistics of a table say how often it is read and written and how many
partitions it has.  From them come the ratios of operations, which are whole
numbers, and the modulus that keeps a partition key within the partitions.

**Rounding a modulus.** A modulus is rounded to the nearest multiple of a power
of ten, a half going up, and never to zero.
-/

namespace CqlWorkload

namespace Statistic

/-- Steps into which a weight of one is divided. -/
def resolution : Int := 10000

def readsName : String := "weighted_reads"

def writesName : String := "weighted_writes"

def partitionsName : String := "Number of partitions (estimate)"

/-- The number that the text of a statistic stands for: commas in it do not count. -/
def numberOf? (text : String) : Option Double :=
  NumberText.statistic? (String.ofList (text.toList.filter (· != ',')))

/-- A statistic of a table by name, as a number. -/
def numeric (stats : Entries Statistic) (name owner : String) : Except Failure Double :=
  match stats.get? name with
  | none => .error (.missingStatistic owner name stats.keys)
  | some statistic =>
    match statistic.written with
    | .error reason => .error (.impossibleValue reason)
    | .ok written =>
      match numberOf? written with
      | some x => .ok x
      | none => .error (.unreadableStatistic owner name written)

end Statistic

/-- A whole number drawn from a double, or the failure to draw one. -/
def Failure.whole (found : Except Double.NotWhole Int) : Except Failure Int :=
  found.mapError .ofNotWhole

namespace Table

/-- The ratio that a weight among the statistics gives; one without statistics. -/
def ratioFor (t : Table) (name : String) : Except Failure Int :=
  if t.hasStats then
    match Statistic.numeric t.statistics name t.fullName with
    | .error failure => .error failure
    | .ok x => Failure.whole (x.mul (.ofInt Statistic.resolution)).truncate
  else .ok 1

def readRatio (t : Table) : Except Failure Int := t.ratioFor Statistic.readsName

def writeRatio (t : Table) : Except Failure Int := t.ratioFor Statistic.writesName

/-- Reads and writes together; one without statistics. -/
def totalRatio (t : Table) : Except Failure Int :=
  if t.hasStats then
    match t.readRatio with
    | .error failure => .error failure
    | .ok reads =>
      match t.writeRatio with
      | .error failure => .error failure
      | .ok writes => .ok (reads + writes)
  else .ok 1

/-- The number of partitions times a multiplier, rounded to a whole number. -/
def partitionModulo (t : Table) (multiplier : Double) : Except Failure Int :=
  match Statistic.numeric t.statistics Statistic.partitionsName t.fullName with
  | .error failure => .error failure
  | .ok estimate =>
    Failure.whole ((estimate.mul multiplier).add (.nearest false 1 2)).floor

end Table

namespace Modulus

/-- The number of digits of a modulus, or the complaint about too many of them. -/
def digitCount (n : Nat) : Except Failure Nat :=
  (List.length <$> Digit.written n).mapError .impossibleValue

/-- The power of ten that a modulus of so many digits is rounded to a multiple of. -/
def step (digits : Nat) (significand : Int) : Nat :=
  tenTo (max 1 ((digits : Int) - 1 - significand)).toNat

/-- The multiple of a step nearest to a modulus, a half going up; never zero. -/
def roundTo (step modulo : Nat) : Nat :=
  let lower := modulo / step * step
  let upper := lower + step
  if lower = 0 ∨ upper - modulo ≤ modulo - lower then upper else lower

/-- A modulus rounded to its leading digits, one more than `significand`. -/
def quantize (modulo : Nat) (significand : Int) : Nat :=
  roundTo (step (Nat.toDigits 10 modulo).length significand) modulo

/-- Round a modulus, which has to be positive.  Its digits are counted in its text. -/
def quantizeChecked (modulo significand : Int) : Except Failure Nat := do
  let digits ← digitCount modulo.natAbs
  if modulo ≤ 0 then .error (.badModulus modulo)
  else .ok (roundTo (step digits significand) modulo.toNat)

end Modulus
end CqlWorkload
