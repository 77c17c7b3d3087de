import CqlWorkload.Pattern.Matcher

/-!
# Binding libraries

A library is an ordered list of rules, each of which gives a recipe for the
column types that it matches.  Types are matched without blanks and without
regard to case; the first rule that matches and has a recipe wins.

**The built-in library** knows the scalar types by name, the three collections
of scalars, and types inside `frozen`, to any depth.
-/

namespace CqlWorkload

inductive Rule
  /-- Types that match a pattern; the recipe is made from the type, and without one
  the rule declines. -/
  | ofPattern (test : String → Bool) (recipe : List Char → Option String)
  /-- Types with one of these names. -/
  | named (names : List String) (recipe : String)
  | list
  | set
  | map
  | frozen

structure Library where
  name : String
  rules : List Rule

namespace Library

/-- Is a text a word when case is ignored? -/
def isWord : List Char → List Char → Bool
  | [], [] => true
  | p :: ps, c :: cs => Pattern.isLike p c && isWord ps cs
  | _, _ => false

/-- What follows a word at the front of a text when case is ignored. -/
def afterWord? : List Char → List Char → Option (List Char)
  | [], cs => some cs
  | _ :: _, [] => none
  | p :: ps, c :: cs => if Pattern.isLike p c then afterWord? ps cs else none

/-- The text inside angle brackets behind a word, if there is any. -/
def inside? (word : String) (cs : List Char) : Option (List Char) :=
  match afterWord? (word.toList ++ ['<']) cs with
  | none => none
  | some rest =>
    match Text.before? ['>'] rest with
    | some (c :: inner) => some (c :: inner)
    | _ => none

/-- The two parts around the first comma, neither of them empty. -/
def aroundComma? (cs : List Char) : Option (List Char × List Char) :=
  match cs.takeWhile (· != ','), cs.dropWhile (· != ',') with
  | c :: key, _ :: d :: value => some (c :: key, d :: value)
  | _, _ => none

def elementGenerators : List (String × String) := [
  ("ascii", "NumberNameToString()"),
  ("text", "NumberNameToString()"),
  ("varchar", "NumberNameToString()"),
  ("bigint", "ToLong()"),
  ("int", "ToInt()"),
  ("smallint", "ToShort()"),
  ("tinyint", "ToByte()"),
  ("varint", "ToBigInteger()"),
  ("decimal", "ToBigDecimal()"),
  ("double", "ToDouble()"),
  ("float", "ToFloat()"),
  ("boolean", "ToBoolean()"),
  ("uuid", "ToHashedUUID()"),
  ("timeuuid", "ToTimeUUID()"),
  ("timestamp", "ToJavaInstant()"),
  ("date", "LongToLocalDateDays()"),
  ("inet", "ToInetAddress()")]

/-- The type of an element, taken out of one `frozen` around it. -/
def unfrozen (cs : List Char) : List Char :=
  match Text.after? "frozen<".toList cs with
  | none => cs
  | some rest =>
    match Text.before? ['>'] rest with
    | some (c :: inner) => c :: inner
    | _ => cs

/-- Generator of the elements of a collection. -/
def element? (cs : List Char) : Option String :=
  let name := String.ofList (unfrozen (cs.map Char.toLower))
  (elementGenerators.find? (·.1 == name)).map (·.2)

def collectionSize : String := "HashRange(1,5)"

/-- The recipe that a rule has for a type without blanks; `frozen` looks up the
recipe of the type inside. -/
def ruleRecipe? (frozen : List Char → Option String) (cs : List Char) : Rule → Option String
  | .ofPattern test recipe => if test (String.ofList cs) then recipe cs else none
  | .named names recipe => if names.any (isWord ·.toList cs) then some recipe else none
  | .list =>
    (inside? "list" cs).bind fun inner =>
      (element? inner).map fun e => "ListSizedHashed(" ++ collectionSize ++ "," ++ e ++ ")"
  | .set =>
    (inside? "set" cs).bind fun inner =>
      (element? inner).map fun e => "SetSizedHashed(" ++ collectionSize ++ "," ++ e ++ ")"
  | .map =>
    ((inside? "map" cs).bind aroundComma?).bind fun (key, value) =>
      match element? key, element? value with
      | some k, some v =>
        some ("MapSizedHashed(" ++ collectionSize ++ "," ++ k ++ "," ++ v ++ ")")
      | _, _ => none
  | .frozen => (inside? "frozen" cs).bind frozen

def builtIn : Library where
  name := "cql-defaults"
  rules := [
    .named ["ascii"] "Hash(); AlphaNumericString(100)",
    .named ["text", "varchar"] "Hash(); NumberNameToString()",
    .named ["bigint"] "Hash(); ToLong()",
    .named ["int"] "Hash(); ToInt()",
    .named ["smallint"] "Hash(); ToShort()",
    .named ["tinyint"] "Hash(); ToByte()",
    .named ["varint"] "Hash(); ToBigInteger()",
    .named ["decimal"] "Hash(); ToBigDecimal()",
    .named ["double"] "Hash(); ToDouble()",
    .named ["float"] "Hash(); ToFloat()",
    .named ["boolean"] "Hash(); ToBoolean()",
    .named ["counter"] "HashRange(1,10); ToLong()",
    .named ["uuid"] "ToHashedUUID()",
    .named ["timeuuid"] "ToTimeUUID()",
    .named ["timestamp"] "Hash(); ToJavaInstant()",
    .named ["date"] "Hash(); LongToLocalDateDays()",
    .named ["time"] "Hash(); Mod(86400000000000L); ToCqlTime()",
    .named ["duration"] "Hash(); ToCqlDurationNanos()",
    .named ["inet"] "Hash(); ToInetAddress()",
    .named ["blob"] "Hash(); ToByteBuffer(64)",
    .list, .set, .map, .frozen]

/-- The recipe of the first rule that has one; `frozen` looks up a type inside. -/
def firstRecipe? (frozen : List Char → Option String) (rules : List Rule) (cs : List Char) :
    Option String :=
  rules.findSome? (ruleRecipe? frozen cs)

/-- The built-in recipe of a type without blanks, nested to at most `depth`. -/
def builtInRecipe? : Nat → List Char → Option String
  | 0, _ => none
  | depth + 1, cs => firstRecipe? (builtInRecipe? depth) builtIn.rules cs

/-- The recipe that a library has for a type. -/
def resolve (library : Library) (type : String) : Option String :=
  let cs := (Text.withoutBlanks type).toList
  firstRecipe? (builtInRecipe? cs.length) library.rules cs

/-- The library of some patterns with their recipes. -/
def ofPatterns (name : String) (rules : List (String × Option String))
    (m : Matcher := .standard) : Except Pattern.Fault Library :=
  (fun rules => ⟨name, rules⟩) <$> rules.mapM fun rule =>
    (Rule.ofPattern · fun _ => rule.2) <$> m.read true rule.1

end Library
end CqlWorkload
