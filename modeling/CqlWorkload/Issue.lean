import CqlWorkload.Value.Text

/-!
# Located faults

Checking a document does not stop at the first fault: a result is either the
checked value or the list of all its faults, each with the path to the place
that it concerns.

**Sources.** Documents come as values or as JSON text; the wording of some
faults depends on which of the two was checked.
-/

namespace CqlWorkload

/-- Where a checked document comes from. -/
inductive Source
  | values
  | json
  deriving DecidableEq

namespace Issue

/-- One step of a path into a document. -/
inductive Step
  | name (s : String)
  | index (n : Int)
  deriving DecidableEq

inductive Fault
  | missing
  | notText
  | notList
  | notMapping
  | notRecord (record : String)
  | notTruth
  | unclearTruth
  | notNumber
  | unclearNumber
  | notWhole
  | notAmong (choices : List String)
  | notPath
  | malformed
  | rejected (reason : String)
  deriving DecidableEq

def Fault.tag : Fault → String
  | .missing => "missing"
  | .notText => "string_type"
  | .notList => "list_type"
  | .notMapping => "dict_type"
  | .notRecord _ => "model_type"
  | .notTruth => "bool_type"
  | .unclearTruth => "bool_parsing"
  | .notNumber => "float_type"
  | .unclearNumber => "float_parsing"
  | .notWhole => "int_type"
  | .notAmong _ => "literal_error"
  | .notPath => "path_type"
  | .malformed => "json_invalid"
  | .rejected _ => "value_error"

/-- Choices in quotes, the last one after `or`. -/
def choiceText : List String → String
  | [] => ""
  | [a] => "'" ++ a ++ "'"
  | [a, b] => "'" ++ a ++ "' or '" ++ b ++ "'"
  | a :: rest => "'" ++ a ++ "', " ++ choiceText rest

def Fault.message (source : Source) : Fault → String
  | .missing => "Field required"
  | .notText => "Input should be a valid string"
  | .notList =>
    match source with
    | .values => "Input should be a valid list"
    | .json => "Input should be a valid array"
  | .notMapping =>
    match source with
    | .values => "Input should be a valid dictionary"
    | .json => "Input should be an object"
  | .notRecord record =>
    match source with
    | .values => s!"Input should be a valid dictionary or instance of {record}"
    | .json => "Input should be an object"
  | .notTruth => "Input should be a valid boolean"
  | .unclearTruth => "Input should be a valid boolean, unable to interpret input"
  | .notNumber => "Input should be a valid number"
  | .unclearNumber => "Input should be a valid number, unable to parse string as a number"
  | .notWhole => "Input should be a valid integer"
  | .notAmong choices => "Input should be " ++ choiceText choices
  | .notPath => "Input is not a valid path for <class 'pathlib.Path'>"
  | .malformed => ""
  | .rejected reason => "Value error, " ++ reason

end Issue

/-- A fault and the place it concerns. -/
structure Issue where
  path : List Issue.Step
  fault : Issue.Fault
  deriving DecidableEq

/-- The outcome of checking a document. -/
inductive Checked (α : Type)
  | valid (a : α)
  | faulty (issues : List Issue)

namespace Checked

variable {α β : Type}

def fault (f : Issue.Fault) : Checked α := .faulty [⟨[], f⟩]

def map (f : α → β) : Checked α → Checked β
  | .valid a => .valid (f a)
  | .faulty issues => .faulty issues

/-- Check two parts of a document; the faults of both are kept, in order. -/
def both (f : Checked (α → β)) (a : Checked α) : Checked β :=
  match f, a with
  | .valid f, .valid a => .valid (f a)
  | .faulty first, .faulty second => .faulty (first ++ second)
  | .faulty issues, .valid _ => .faulty issues
  | .valid _, .faulty issues => .faulty issues

instance : Applicative Checked where
  pure := .valid
  map := map
  seq f a := both f (a ())

/-- Check a whole after its parts. -/
def andThen (a : Checked α) (f : α → Checked β) : Checked β :=
  match a with
  | .valid a => f a
  | .faulty issues => .faulty issues

/-- Place the faults of a part below a step. -/
def under (step : Issue.Step) : Checked α → Checked α
  | .valid a => .valid a
  | .faulty issues => .faulty (issues.map fun issue => { issue with path := step :: issue.path })

/-- Place the faults of a part below a name. -/
def inField (name : String) (a : Checked α) : Checked α := a.under (.name name)

/-- Check the items of a list from a position on. -/
def itemsFrom (check : Value → Checked α) : Nat → List Value → Checked (List α)
  | _, [] => .valid []
  | n, item :: rest =>
    List.cons <$> (check item).under (.index n) <*> itemsFrom check (n + 1) rest

def list (check : Value → Checked α) : Value → Checked (List α)
  | .list items => itemsFrom check 0 items
  | _ => fault .notList

def text : Value → Checked String
  | .text s => .valid s
  | _ => fault .notText

/-- Step of a path for a key that is not a text. -/
def keyStep : Value → Issue.Step
  | .text s => .name s
  | .int n => if -9223372036854775808 ≤ n ∧ n < 9223372036854775808 then .index n else .name (intText n)
  | .bool b => .index (if b then 1 else 0)
  | key => .name key.shown

/-- A key of a mapping, which has to be a text. -/
def key (k : Value) : Checked String :=
  match k with
  | .text s => .valid s
  | k => (fault .notText).under (.name "[key]") |>.under (keyStep k)

/-- The entries of a mapping with text keys, every value of which is checked. -/
def entriesOf (check : Value → Checked α) : List (Value × Value) → Checked (List (String × α))
  | [] => .valid []
  | (k, value) :: rest =>
    (fun k a rest => (k, a) :: rest) <$> key k <*> (check value).under (keyStep k) <*>
      entriesOf check rest

def mapping (check : Value → Checked α) : Value → Checked (List (String × α))
  | .map entries => entriesOf check entries
  | _ => fault .notMapping

/-- The words that read as a truth value. -/
def truthWord? (s : String) : Option Bool :=
  let word := String.ofList (s.toList.map Char.toLower)
  if ["0", "off", "f", "false", "n", "no"].contains word then some false
  else if ["1", "on", "t", "true", "y", "yes"].contains word then some true
  else none

/-- A truth value, or a number or word that stands for one. -/
def truth : Value → Checked Bool
  | .bool b => .valid b
  | .int n =>
    if n = 0 then .valid false else if n = 1 then .valid true else fault .unclearTruth
  | .float x =>
    match x.toInt? with
    | some 0 => .valid false
    | some 1 => .valid true
    | _ => fault .notTruth
  | .text s =>
    match truthWord? s with
    | some b => .valid b
    | none => fault .unclearTruth
  | _ => fault .notTruth

/-- A field of a mapping with a value that stands in when it is absent. -/
def fieldOr (entries : List (Value × Value)) (name : String) (absent : α)
    (check : Value → Checked α) : Checked α :=
  match Value.lookup entries name with
  | some value => (check value).inField name
  | none => .valid absent

/-- A field of a mapping that has to be there. -/
def field (entries : List (Value × Value)) (name : String) (check : Value → Checked α) :
    Checked α :=
  match Value.lookup entries name with
  | some value => (check value).inField name
  | none => (fault .missing).inField name

/-- The entries of a record given as a mapping. -/
def record (name : String) (check : List (Value × Value) → Checked α) : Value → Checked α
  | .map entries => check entries
  | _ => fault (.notRecord name)

end Checked
end CqlWorkload
