import CqlWorkload.Schema.Basic

/-!
# Writing a schema

A schema is written as a value that names all fields in a fixed order, so that
reading what was written gives the schema again.
-/

namespace CqlWorkload

def optionalText : Option String → Value
  | none => .null
  | some s => .text s

def textList (texts : List String) : Value := .list (texts.map .text)

def Keyspace.toValue (k : Keyspace) : Value :=
  .ofEntries [("name", .text k.name), ("replication", k.replication),
    ("durable_writes", .bool k.durableWrites)]

def UserType.toValue (t : UserType) : Value :=
  .ofEntries [("keyspace", .text t.keyspace), ("name", .text t.name),
    ("fields", .ofEntries (t.fields.map fun field => (field.1, .text field.2)))]

def Column.toValue (c : Column) : Value :=
  .ofEntries [("name", .text c.name), ("type_def", .text c.typeText),
    ("role", .text c.role.text), ("keyspace", optionalText c.keyspace),
    ("table", optionalText c.table)]

/-- Statistics as a mapping from their names. -/
def Statistic.tableToValue (stats : Entries Statistic) : Value :=
  .ofEntries [("attributes",
    .ofEntries (stats.map fun entry => (entry.1, entry.2.toValue)))]

def Table.toValue (t : Table) : Value :=
  .ofEntries [("keyspace", .text t.keyspace), ("name", .text t.name),
    ("columns", .list (t.columns.map Column.toValue)),
    ("partition_keys", textList t.partitionKeys),
    ("clustering_columns", textList t.clusteringColumns),
    ("clustering_orders", textList (t.clusteringOrders.map (·.text))),
    ("stats", (t.stats.map Statistic.tableToValue).getD .null),
    ("compact_storage", .bool t.compactStorage)]

def Schema.toValue (s : Schema) : Value :=
  .ofEntries [("keyspaces", .list (s.keyspaces.map Keyspace.toValue)),
    ("types", .list (s.types.map UserType.toValue)),
    ("tables", .list (s.tables.map Table.toValue))]

end CqlWorkload
