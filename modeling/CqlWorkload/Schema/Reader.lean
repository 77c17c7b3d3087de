import CqlWorkload.Issue
import CqlWorkload.Schema.Rules

/-!
# Reading a schema

A schema is read from a value whose mappings name the fields.  All fields are
checked before the rules of the whole are, and the rules of a part before the
rules of what it is a part of; fields of other names are passed over.
-/

namespace CqlWorkload

namespace Checked

/-- Let a value pass unless a reason against it is given. -/
def guarded {α : Type} (a : α) : Option String → Checked α
  | none => .valid a
  | some reason => fault (.rejected reason)

/-- A text that is one of the known ones. -/
def among {α : Type} (choices : List String) (known : String → Option α) : Value → Checked α
  | .text s =>
    match known s with
    | some a => .valid a
    | none => fault (.notAmong choices)
  | _ => fault (.notAmong choices)

/-- Null, or a value that is checked. -/
def optional {α : Type} (check : Value → Checked α) : Value → Checked (Option α)
  | .null => .valid none
  | value => some <$> check value

end Checked

open Checked

/-- A statistic; a truth value counts as the number one or zero. -/
def Statistic.read : Value → Checked Statistic
  | .float x => .valid (.float x)
  | .int n => .valid (.int n)
  | .text s => .valid (.text s)
  | .bool b => .valid (.float (.ofBool b))
  | _ =>
    .faulty [⟨[.name "float"], .notNumber⟩, ⟨[.name "int"], .notWhole⟩,
      ⟨[.name "str"], .notText⟩]

namespace Keyspace

/-- The faults of a value that is no replication, once for each form. -/
def notReplication (issues : List Issue) : Checked Value :=
  .faulty (⟨[.name "str"], .notText⟩ ::
    issues.map fun issue => { issue with path := .name "dict[str,any]" :: issue.path })

/-- A replication: a text, or a mapping with text keys. -/
def readReplication (value : Value) : Checked Value :=
  match value with
  | .text s => .valid (.text s)
  | value =>
    match mapping .valid value with
    | .valid entries => .valid (Value.ofEntries entries)
    | .faulty issues => notReplication issues

def read (value : Value) : Checked Keyspace :=
  (record "Keyspace" (fun fields =>
    Keyspace.mk <$> field fields "name" text <*>
      fieldOr fields "replication" Replication.standard readReplication <*>
      fieldOr fields "durable_writes" true truth) value).andThen fun k =>
  .guarded k (if k.isReplicated then none else some k.faultText)

end Keyspace

namespace UserType

def read (value : Value) : Checked UserType :=
  (record "UserType" (fun fields =>
    UserType.mk <$> field fields "keyspace" text <*> field fields "name" text <*>
      field fields "fields" (mapping text)) value).andThen fun t =>
  .guarded t (if t.fields.isEmpty then some t.faultText else none)

end UserType

namespace Column

def read : Value → Checked Column :=
  record "ColumnDef" fun fields =>
    Column.mk <$> field fields "name" text <*> field fields "type_def" text <*>
      fieldOr fields "role" .regular (among (Role.all.map (·.text)) Role.ofText?) <*>
      fieldOr fields "keyspace" none (optional text) <*>
      fieldOr fields "table" none (optional text)

end Column

namespace Table

/-- A clustering order: the text of any value, blanks and case aside. -/
def readOrder (value : Value) : Checked Order :=
  among (Order.all.map (·.text)) Order.ofText?
    (.text (Column.lowerType (Text.trim value.plainText)))

/-- The clustering orders of a table.  All of them are written before any is looked at. -/
def readOrders : Value → Checked (List Order)
  | .list items =>
    if Value.itemsWritable items then list readOrder (.list items)
    else fault (.rejected (Digit.tooMany ""))
  | value => list readOrder value

def readStats : Value → Checked (Entries Statistic) :=
  record "TableStats" fun fields => fieldOr fields "attributes" [] (mapping Statistic.read)

/-- The fields of a table, before its rules are checked. -/
def readFields : Value → Checked Table :=
  record "Table" fun fields =>
    Table.mk <$> field fields "keyspace" text <*> field fields "name" text <*>
      field fields "columns" (list Column.read) <*>
      field fields "partition_keys" (list text) <*>
      fieldOr fields "clustering_columns" [] (list text) <*>
      fieldOr fields "clustering_orders" [] readOrders <*>
      fieldOr fields "stats" none (optional readStats) <*>
      fieldOr fields "compact_storage" false truth

def read (value : Value) : Checked Table :=
  (readFields value).andThen fun t =>
  .guarded t.bind (t.fault?.map (Fault.message t.fullName))

end Table

namespace Schema

def read (value : Value) : Checked Schema :=
  (record "SchemaModel" (fun fields =>
    Schema.mk <$> fieldOr fields "keyspaces" [] (list Keyspace.read) <*>
      fieldOr fields "types" [] (list UserType.read) <*>
      fieldOr fields "tables" [] (list Table.read)) value).andThen fun s =>
  .guarded s (s.repeated?.map fun name => faultText name.1 name.2)

end Schema
end CqlWorkload
