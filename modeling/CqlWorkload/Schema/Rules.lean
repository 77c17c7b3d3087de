import CqlWorkload.Schema.Basic
import CqlWorkload.Text.Quoted
import CqlWorkload.Text.Sorted

/-!
# Rules of a schema

Beyond the kinds of its fields a schema keeps the rules below.  Each rule is a
fault that a schema may have, with the sentence that reports it, and a check
that finds the first fault.

**Tables.** Checking a table also binds its columns: every column gets the
keyspace and name of the table, and the role that the key lists and its type
give it.
-/

namespace CqlWorkload

/-! ## Keyspaces and user types -/

namespace Keyspace

/-- The replication of a keyspace says something. -/
def isReplicated (k : Keyspace) : Bool :=
  match Replication.body? k.replication with
  | none => false
  | some body => body != ""

def faultText (k : Keyspace) : String :=
  match Replication.body k.replication with
  | .error (.unwritten reason) => reason
  | _ => s!"keyspace '{k.name}': replication settings are empty"

end Keyspace

namespace UserType

def faultText (t : UserType) : String :=
  s!"type '{t.fullName}' declares no fields"

end UserType

/-! ## Tables -/

namespace Table

/-- What may be wrong with the keys of a table. -/
inductive Fault
  | repeatedColumns (names : List String)
  | noPartitionKey
  | repeatedKeys (names : List String)
  | unknownKey (name : String)
  | tooManyOrders (orders columns : Nat)
  | strayKey (name : String) (role : Role)
  deriving DecidableEq

def Fault.message (table : String) : Fault → String
  | .repeatedColumns names => table ++ ": duplicate columns " ++ Text.quotedList names
  | .noPartitionKey => table ++ ": at least one partition key is required"
  | .repeatedKeys names =>
    table ++ ": key columns " ++ Text.quotedList names ++
      " appear more than once in partition_keys and clustering_columns"
  | .unknownKey name => s!"{table}: key column '{name}' is not defined"
  | .tooManyOrders orders columns =>
    s!"{table}: {orders} clustering orders for {columns} clustering columns"
  | .strayKey name role =>
    s!"{table}: column '{name}' declared as {role.text} but missing from the key lists"

/-- The first fault in the keys of a table. -/
def fault? (t : Table) : Option Fault :=
  let names := t.columns.map (·.name)
  let keys := t.keyNames
  if Text.repeatedNames names ≠ [] then some (.repeatedColumns (Text.repeatedNames names))
  else if t.partitionKeys = [] then some .noPartitionKey
  else if Text.repeatedNames keys ≠ [] then some (.repeatedKeys (Text.repeatedNames keys))
  else
    match keys.find? (!names.contains ·) with
    | some key => some (.unknownKey key)
    | none =>
      if t.clusteringColumns.length < t.clusteringOrders.length then
        some (.tooManyOrders t.clusteringOrders.length t.clusteringColumns.length)
      else
        (t.columns.find? fun c => c.isKey && !keys.contains c.name).map fun c =>
          .strayKey c.name c.role

/-- The role that the key lists and the type of a column give it. -/
def roleOf (t : Table) (c : Column) : Role :=
  if t.partitionKeys.contains c.name then .partitionKey
  else if t.clusteringColumns.contains c.name then .clusteringKey
  else if c.isCounter then .counter
  else c.role

/-- The table with its columns bound to it. -/
def bind (t : Table) : Table :=
  { t with
    columns := t.columns.map fun c =>
      { c with keyspace := some t.keyspace, table := some t.name, role := t.roleOf c } }

end Table

/-! ## Schemas -/

namespace Schema

/-- The first name that occurs a second time. -/
def firstRepeated (seen : List String) : List String → Option String
  | [] => none
  | name :: rest => if seen.contains name then some name else firstRepeated (name :: seen) rest

/-- A name that is declared twice, with the kind of thing it is declared for. -/
def repeated? (s : Schema) : Option (String × String) :=
  match firstRepeated [] (s.keyspaces.map (·.name)) with
  | some name => some ("keyspace", name)
  | none =>
    match firstRepeated [] (s.types.map (·.fullName)) with
    | some name => some ("type", name)
    | none => (firstRepeated [] (s.tables.map (·.fullName))).map fun name => ("table", name)

def faultText (kind name : String) : String :=
  s!"{kind} '{name}' is defined more than once"

end Schema
end CqlWorkload
