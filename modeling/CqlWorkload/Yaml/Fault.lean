import CqlWorkload.Number.Digit
import CqlWorkload.Number.Layout

/-!
# Faults of YAML texts

A text is malformed when it breaks the rules of the format or when the tags of its
nodes do not fit together.  A scalar of a fitting tag may still name a value that
does not exist.

**Limits.** A few values that a text can ask for are none of this library; a fault of its
own says so, which is no statement about the text.
-/

namespace CqlWorkload.Yaml

inductive Fault
  /-- The text is no document. -/
  | malformed
  /-- A scalar has no value, for a reason. -/
  | noValue (reason : String)
  /-- The code of an escaped character is too large for a machine word. -/
  | wideCode
  /-- The weight of a place of a double to the base sixty is too large for a double. -/
  | wideWeight
  /-- A scalar is no word for a truth value. -/
  | noTruth (word : String)
  /-- A scalar has not the form of a time stamp. -/
  | noStamp
  /-- A time stamp is asked of a mapping. -/
  | stampOfMapping
  /-- A scalar of a number is empty. -/
  | noDigits
  /-- The text asks for a value that this library has none of: bytes, a set or pairs, a
  node inside itself, or one half of a pair of surrogates. -/
  | unsupported
  deriving DecidableEq

/-- A whole number has more decimal digits than are read. -/
def Fault.tooManyDigits (count : Nat) : Fault :=
  .noValue (Digit.tooMany (": value has " ++ FloatLayout.digitsText count ++ " digits"))

end CqlWorkload.Yaml
