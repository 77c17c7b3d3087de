import CqlWorkload.FileTree
import CqlWorkload.Settings.Basic
import CqlWorkload.Settings.EnvFile
import CqlWorkload.Text.Case

/-!
# Reading settings

A setting has the value that is given for it, or the value of the variable that is
named for it, or a standard value.

**Environment.** The name of a variable counts in any case, and of several variables
the last one counts.  Before it is read, the environment is extended by the nearest
variable file in the working directory or one of the three directories above it; a
variable that is there already, by exactly that name, is kept.
-/

namespace CqlWorkload

/-- The variables of a process, in order. -/
abbrev Environment := Entries String

namespace Environment

/-- The value of the last variable of a name, which is given in lower case. -/
def last? (env : Environment) (name : String) : Option String :=
  match env with
  | [] => none
  | (key, value) :: rest =>
    match last? rest name with
    | some later => some later
    | none => if Text.lowerText key = name then some value else none

/-- The environment with a variable, unless there is one of that name. -/
def extend (env : Environment) (name value : String) : Except Failure Environment :=
  if (env.get? name).isSome then .ok env
  else if name.toList.contains '\x00' || value.toList.contains '\x00' then
    .error (.impossibleValue "embedded null byte")
  else if name.toList.contains '=' then
    .error (.impossibleValue "illegal environment variable name")
  else .ok (env ++ [(name, value)])

/-- The environment with the variables that have a value. -/
def extendAll (env : Environment) : List (String × Option String) → Except Failure Environment
  | [] => .ok env
  | (_, none) :: rest => extendAll env rest
  | (name, some value) :: rest => do extendAll (← env.extend name value) rest

end Environment

namespace EnvFile

def fileName : String := ".env"

/-- The number of directories in which a variable file is looked for. -/
def reach : Nat := 4

/-- The nearest variable file from a directory upwards.  A directory of that name ends
the search as well. -/
def nearest (tree : FileTree) : Nat → Place → Option Place
  | 0, _ => none
  | count + 1, directory =>
    let place := directory ++ [fileName]
    if (tree.get? place).isSome || tree.isDirectory place then some place
    else if directory.isEmpty then none
    else nearest tree count directory.dropLast

/-- The variable file that counts in a working directory. -/
def find? (tree : FileTree) (cwd : Place) : Option Place := nearest tree reach cwd

/-- The environment extended by the variable file that counts in a working directory. -/
def load (tree : FileTree) (cwd : Place) (env : Environment) : Except Failure Environment :=
  match (find? tree cwd).bind tree.get? with
  | none => .ok env
  | some content => do
    let text ← content.read
    env.extendAll (EnvFile.assigned env text)

end EnvFile

namespace Settings

open Checked

/-- What the names of variables for settings begin with, in lower case. -/
def variableStart : String := "cqlgen_"

/-- The value for a setting: a given one, or the one of its variable. -/
def source? (env : Environment) (given : List (Value × Value)) (name : String) :
    Option Value :=
  match Value.lookup given name with
  | some value => some value
  | none => (env.last? (variableStart ++ name)).map .text

/-- A setting that has a standard value. -/
def setting {α : Type} (env : Environment) (given : List (Value × Value)) (name : String)
    (absent : α) (check : Value → Checked α) : Checked α :=
  match source? env given name with
  | some value => (check value).inField name
  | none => .valid absent

def path : Value → Checked Path
  | .text s => .valid (Path.ofText s)
  | _ => fault .notPath

def optionalPath : Value → Checked (Option Path)
  | .null => .valid none
  | value => some <$> path value

def read (env : Environment) (given : List (Value × Value)) : Checked Settings :=
  Settings.mk <$> setting env given "config_file" standard.configFile path <*>
    setting env given "log_level" standard.logLevel text <*>
    setting env given "log_file" standard.logFile optionalPath

def load (tree : FileTree) (cwd : Place) (env : Environment) (given : List (Value × Value)) :
    Except Failure Settings := do
  let env ← EnvFile.load tree cwd env
  match read env given with
  | .valid settings => return settings
  | .faulty issues => .error (.invalidRecord "Settings" issues)

end Settings

end CqlWorkload
