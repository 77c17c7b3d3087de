import CqlWorkload.FileTree
import CqlWorkload.Log
import CqlWorkload.Settings.Basic
import CqlWorkload.Text.Case

/-!
# Logging

The log of a command goes to a file, if the settings name one.  The file is made before
anything else happens, and entries below the level of the settings are left out.
-/

namespace CqlWorkload

namespace Log

def Level.rank : Level → Nat
  | .debug => 10
  | .info => 20
  | .warning => 30

/-- The ranks of the named levels.  A level that is not set is the one of warnings. -/
def namedRanks : List (String × Nat) := [
  ("DEBUG", 10), ("INFO", 20), ("WARN", 30), ("WARNING", 30), ("NOTSET", 30), ("ERROR", 40),
  ("CRITICAL", 50), ("FATAL", 50)]

/-- A name that stands for a layout of entries and for no level. -/
def layoutName : String := "BASIC_FORMAT"

def layout : String := "%(levelname)s:%(name)s:%(message)s"

def rankOf (name : String) : Except Failure Nat :=
  let upper := Text.upperText name
  match namedRanks.lookup upper with
  | some rank => .ok rank
  | none =>
    if upper = layoutName then .error (.unknownLevel layout) else .error (.noLogLevel upper)

/-- The text of the entries of a rank and above. -/
def linesFrom (rank : Nat) (log : Log) : String :=
  String.join ((log.filter (rank ≤ ·.level.rank)).map fun entry =>
    entry.level.text ++ " - " ++ entry.text ++ "\n")

end Log

namespace Settings

/-- Begin to log: the rank of the least level that is logged, and the tree with the file
of the log. -/
def openLog (s : Settings) (tree : FileTree) (cwd : Place) : Except Failure (Nat × FileTree) := do
  let rank ← Log.rankOf s.logLevel
  match s.logFile with
  | none => return (rank, tree)
  | some file => return (rank, ← tree.append cwd file "")

def record (s : Settings) (tree : FileTree) (cwd : Place) (rank : Nat) (log : Log) : FileTree :=
  match s.logFile with
  | none => tree
  | some file =>
    match tree.append cwd file (log.linesFrom rank) with
    | .ok tree => tree
    | .error _ => tree

end Settings

end CqlWorkload
