import CqlWorkload.Path
import CqlWorkload.Workload.Format

/-!
# Arguments

The first argument names a command.  The others are its options, which take a value
each, and its operands, in any order; two dashes end the options.  Of several values of
an option the last one counts.
-/

namespace CqlWorkload

/-- What an export is asked to do. -/
structure Export where
  schema : Path
  target : Option Path
  config : Option Path
  format : Format
  deriving DecidableEq

inductive Command
  | generate (e : Export)
  | showModel (schema : Path)
  | help
  deriving DecidableEq

namespace CommandLine

inductive Flag
  | config
  | format
  deriving DecidableEq

def Flag.ofWord? : List Char → Option Flag
  | cs =>
    if cs = "--config".toList then some .config
    else if cs = "--format".toList then some .format
    else none

def Flag.ofLetter? : Char → Option Flag
  | 'c' => some .config
  | 'f' => some .format
  | _ => none

/-- What an argument that begins with a dash is read as. -/
inductive Reading
  | complete (flag : Flag) (value : String)
  | awaiting (flag : Flag)
  | help
  | unknown

def isOption : List Char → Bool
  | '-' :: _ :: _ => true
  | _ => false

/-- A flag with the value that follows an equals sign. -/
def withValue (flag : Flag) : List Char → Reading
  | '=' :: value => .complete flag (String.ofList value)
  | _ => .awaiting flag

/-- An option by a word, or by a letter that its value may follow directly. -/
def readOption (cs : List Char) : Reading :=
  let word := cs.takeWhile (· != '=')
  match Flag.ofWord? word with
  | some flag => withValue flag (cs.dropWhile (· != '='))
  | none =>
    match cs with
    | '-' :: '-' :: _ => if cs = "--help".toList then .help else .unknown
    | '-' :: letter :: value =>
      match Flag.ofLetter? letter with
      | none => .unknown
      | some flag => if value.isEmpty then .awaiting flag else .complete flag (String.ofList value)
    | _ => .unknown

structure Sorted where
  operands : List String
  values : List (Flag × String)
  asksHelp : Bool

namespace Sorted

def addOperand (operand : String) (s : Sorted) : Sorted :=
  { s with operands := operand :: s.operands }

def addValue (flag : Flag) (value : String) (s : Sorted) : Sorted :=
  { s with values := (flag, value) :: s.values }

def last? (s : Sorted) (flag : Flag) : Option String :=
  (s.values.reverse.find? fun found => found.1 == flag).map (·.2)

end Sorted

/-- Sort the arguments of a command that knows some flags. -/
def sort (known : List Flag) : List String → Option Sorted
  | [] => some ⟨[], [], false⟩
  | arg :: rest =>
    if arg = "--" then some ⟨rest, [], false⟩
    else if !isOption arg.toList then (sort known rest).map (Sorted.addOperand arg)
    else
      match readOption arg.toList with
      | .unknown => none
      | .help => (sort known rest).map fun s => { s with asksHelp := true }
      | .complete flag value =>
        if known.contains flag then (sort known rest).map (Sorted.addValue flag value) else none
      | .awaiting flag =>
        match rest with
        | [] => none
        | value :: rest =>
          if known.contains flag then (sort known rest).map (Sorted.addValue flag value)
          else none

def exportOf (s : Sorted) : Option Export := do
  let format ← match s.last? .format with
    | none => some Format.yaml
    | some name => Format.ofText? name
  let config := (s.last? .config).map Path.ofText
  match s.operands with
  | [schema] => return ⟨Path.ofText schema, none, config, format⟩
  | [schema, target] => return ⟨Path.ofText schema, some (Path.ofText target), config, format⟩
  | _ => none

def commandOf (name : String) (args : List String) : Option Command :=
  match name with
  | "export" => do
    let s ← sort [.config, .format] args
    if s.asksHelp then return .help else return .generate (← exportOf s)
  | "show-model" => do
    let s ← sort [] args
    if s.asksHelp then return .help
    else
      match s.operands with
      | [schema] => return .showModel (Path.ofText schema)
      | _ => none
  | _ => none

end CommandLine

/-- The command that arguments ask for, unless they are misused. -/
def Command.ofArguments? : List String → Option Command
  | "--" :: name :: args => CommandLine.commandOf name args
  | "--help" :: _ => some .help
  | name :: args =>
    if CommandLine.isOption name.toList then none else CommandLine.commandOf name args
  | [] => none

end CqlWorkload
