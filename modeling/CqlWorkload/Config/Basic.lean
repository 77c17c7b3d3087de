import CqlWorkload.Entries
import CqlWorkload.Naming.Template
import CqlWorkload.Value
import CqlWorkload.Workload.Component

/-!
# Configurations

A configuration says how names are made, how long operations may take, which
blocks a workload has, and which transformers and type bindings are used.

**Timeouts.** There is one timeout, in seconds, for every kind of operation.
-/

namespace CqlWorkload

inductive TimeoutKind
  | create
  | truncate
  | drop
  | scan
  | select
  | insert
  | delete
  | update
  deriving DecidableEq

namespace TimeoutKind

def text : TimeoutKind → String
  | .create => "create"
  | .truncate => "truncate"
  | .drop => "drop"
  | .scan => "scan"
  | .select => "select"
  | .insert => "insert"
  | .delete => "delete"
  | .update => "update"

def all : List TimeoutKind :=
  [.create, .truncate, .drop, .scan, .select, .insert, .delete, .update]

def ofText? (s : String) : Option TimeoutKind := all.find? (·.text == s)

/-- Seconds that an operation may take unless configured. -/
def standard : TimeoutKind → Int
  | .create => 60
  | .truncate => 900
  | .drop => 900
  | .scan => 30
  | .select => 10
  | .insert => 10
  | .delete => 10
  | .update => 10

end TimeoutKind

structure Timeouts where
  create : Double
  truncate : Double
  drop : Double
  scan : Double
  select : Double
  insert : Double
  delete : Double
  update : Double
  deriving DecidableEq

namespace Timeouts

def get (t : Timeouts) : TimeoutKind → Double
  | .create => t.create
  | .truncate => t.truncate
  | .drop => t.drop
  | .scan => t.scan
  | .select => t.select
  | .insert => t.insert
  | .delete => t.delete
  | .update => t.update

/-- Timeouts with the value that a function gives for every kind. -/
def ofFunction (f : TimeoutKind → Double) : Timeouts where
  create := f .create
  truncate := f .truncate
  drop := f .drop
  scan := f .scan
  select := f .select
  insert := f .insert
  delete := f .delete
  update := f .update

@[simp] theorem get_ofFunction (f : TimeoutKind → Double) (kind : TimeoutKind) :
    (ofFunction f).get kind = f kind := by
  cases kind <;> rfl

def standard : Timeouts := ofFunction fun kind => .ofInt kind.standard

/-- The timeouts as entries, in a fixed order. -/
def entries (t : Timeouts) : Entries Double :=
  TimeoutKind.all.map fun kind => (kind.text, t.get kind)

/-- Every kind is found under its name. -/
@[simp] theorem get?_entries (t : Timeouts) (kind : TimeoutKind) :
    t.entries.get? kind.text = some (t.get kind) := by
  cases kind <;> rfl

end Timeouts

structure TransformerSpec where
  name : String
  settings : Entries Value
  deriving DecidableEq

structure Config where
  namingTemplate : String
  partitionMultiplier : Double
  timeouts : Timeouts
  elideUnusedTables : Bool
  /-- The components of every block, in the order of the blocks. -/
  blockplan : Entries (List Component)
  transformers : List TransformerSpec
  /-- Recipes by type pattern, looked up before the built-in ones. -/
  typeBindings : Entries String
  deriving DecidableEq

end CqlWorkload
