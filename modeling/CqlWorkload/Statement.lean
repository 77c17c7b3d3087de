import CqlWorkload.Failure

/-!
# Statements

Every kind of statement has a record with exactly the slots that its text
needs.  A statement with an empty slot has no text: a slot that is missed never
leaves a hole in what is rendered.
-/

namespace CqlWorkload

inductive Statement
  | createKeyspace (keyspace replication : String) (durableWrites : Bool)
  | createType (keyspace name : String) (fields : List (String × String))
  | createTable (keyspace table : String) (columns : List (String × String))
      (partitionKeys clusteringColumns clusteringOrders : List String)
  | drop (kind target : String)
  | truncate (target : String)
  | insert (keyspace table : String) (columns placeholders : List String)
  | select (keyspace table predicate limit : String)
  | update (keyspace table assignments predicate : String)
  deriving DecidableEq

namespace Statement

/-- The number of rows that a query asks for. -/
def defaultLimit : String := "10"

/-- What stands between the parts of a predicate. -/
def predicateJoiner : String := "\n  AND "

def record : Statement → String
  | .createKeyspace .. => "CreateKeyspaceStatement"
  | .createType .. => "CreateTypeStatement"
  | .createTable .. => "CreateTableStatement"
  | .drop .. => "DropStatement"
  | .truncate .. => "TruncateStatement"
  | .insert .. => "InsertStatement"
  | .select .. => "SelectStatement"
  | .update .. => "UpdateStatement"

/-- The slots that must not be empty, and whether they are. -/
def slots : Statement → List (String × Bool)
  | .createKeyspace keyspace replication _ =>
    [("keyspace", keyspace == ""), ("replication", replication == "")]
  | .createType keyspace name fields =>
    [("keyspace", keyspace == ""), ("name", name == ""), ("fields", fields.isEmpty)]
  | .createTable keyspace table columns partitionKeys _ _ =>
    [("keyspace", keyspace == ""), ("table", table == ""), ("columns", columns.isEmpty),
      ("partition_keys", partitionKeys.isEmpty)]
  | .drop kind target => [("kind", kind == ""), ("target", target == "")]
  | .truncate target => [("target", target == "")]
  | .insert keyspace table columns placeholders =>
    [("keyspace", keyspace == ""), ("table", table == ""), ("columns", columns.isEmpty),
      ("placeholders", placeholders.isEmpty)]
  | .select keyspace table predicate _ =>
    [("keyspace", keyspace == ""), ("table", table == ""), ("predicate", predicate == "")]
  | .update keyspace table assignments predicate =>
    [("keyspace", keyspace == ""), ("table", table == ""), ("assignments", assignments == ""),
      ("predicate", predicate == "")]

def fault? (s : Statement) : Option StatementFault :=
  match s.slots.find? (·.2) with
  | some slot => some (.emptySlot s.record slot.1)
  | none =>
    match s with
    | .insert _ _ columns placeholders =>
      if columns.length = placeholders.length then none
      else some (.lengths columns.length placeholders.length)
    | _ => none

/-- A name and a type, as a column or field is declared. -/
def declaration (entry : String × String) : String := "  " ++ entry.1 ++ " " ++ entry.2

/-- The primary key: the partition key in parentheses, then the clustering columns. -/
def primaryKey (partitionKeys clusteringColumns : List String) : String :=
  Text.joinWith ", " (("(" ++ Text.joinWith ", " partitionKeys ++ ")") :: clusteringColumns)

/-- The clause on the order of rows; none without orders. -/
def orderClause (clusteringColumns clusteringOrders : List String) : String :=
  if clusteringOrders.isEmpty then ""
  else
    " with clustering order by (" ++
      Text.joinWith ", "
        (clusteringColumns.zipWith (fun column order => column ++ " " ++ order)
          clusteringOrders) ++ ")"

def render : Statement → String
  | .createKeyspace keyspace replication durableWrites =>
    "create keyspace " ++ keyspace ++ "\nwith replication = \x7b" ++ replication ++ "\x7d" ++
      (if durableWrites then "" else "\nand durable_writes = false") ++ ";\n"
  | .createType keyspace name fields =>
    "create type " ++ keyspace ++ "." ++ name ++ " (\n" ++
      Text.joinWith ",\n" (fields.map declaration) ++ "\n);\n"
  | .createTable keyspace table columns partitionKeys clusteringColumns clusteringOrders =>
    "create table if not exists " ++ keyspace ++ "." ++ table ++ " (\n" ++
      String.join (columns.map fun column => declaration column ++ ",\n") ++
      "  primary key (" ++ primaryKey partitionKeys clusteringColumns ++ ")\n)" ++
      orderClause clusteringColumns clusteringOrders ++ ";\n"
  | .drop kind target => "drop " ++ kind ++ " " ++ target ++ ";\n"
  | .truncate target => "truncate " ++ target ++ ";\n"
  | .insert keyspace table columns placeholders =>
    "insert into " ++ keyspace ++ "." ++ table ++ "\n( " ++ Text.joinWith ", " columns ++
      " )\nvalues\n( " ++ Text.joinWith ", " placeholders ++ " );\n"
  | .select keyspace table predicate limit =>
    "select * from " ++ keyspace ++ "." ++ table ++ "\nwhere " ++ predicate ++ "\nlimit " ++
      limit ++ ";\n"
  | .update keyspace table assignments predicate =>
    "update " ++ keyspace ++ "." ++ table ++ "\nset " ++ assignments ++ "\nwhere " ++
      predicate ++ ";\n"

/-- The text of a statement without faults. -/
def text (s : Statement) : Except Failure String :=
  match s.fault? with
  | some fault => .error (.badStatement fault)
  | none => .ok s.render

end Statement
end CqlWorkload
