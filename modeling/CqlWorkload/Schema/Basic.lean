import CqlWorkload.Entries
import CqlWorkload.Text.Blank
import CqlWorkload.Value.Text

/-!
# Schemas

A schema lists keyspaces, user types and tables in the order of their
declaration.  A table has columns, two lists of key column names and, if they
are known, statistics.

**Roles.** The role of a column says which key list names it, or that it counts,
or neither; checking a table derives it.

**Replication.** The replication of a keyspace is the text between the braces of
a mapping, or the mapping itself.
-/

namespace CqlWorkload

inductive Role
  | partitionKey
  | clusteringKey
  | regular
  | counter
  deriving DecidableEq

namespace Role

def text : Role → String
  | .partitionKey => "partition_key"
  | .clusteringKey => "clustering_key"
  | .regular => "regular"
  | .counter => "counter"

def all : List Role := [.partitionKey, .clusteringKey, .regular, .counter]

def ofText? (s : String) : Option Role := all.find? (·.text == s)

def isKey : Role → Bool
  | .partitionKey | .clusteringKey => true
  | .regular | .counter => false

end Role

/-- Direction in which a clustering column is sorted. -/
inductive Order
  | asc
  | desc
  deriving DecidableEq

namespace Order

def text : Order → String
  | .asc => "asc"
  | .desc => "desc"

def all : List Order := [.asc, .desc]

def ofText? (s : String) : Option Order := all.find? (·.text == s)

end Order

/-- A table statistic as it was reported. -/
inductive Statistic
  | float (x : Double)
  | int (n : Int)
  | text (s : String)
  deriving DecidableEq

namespace Statistic

def toValue : Statistic → Value
  | .float x => .float x
  | .int n => .int n
  | .text s => .text s

/-- The text of a statistic, or the complaint about its digits. -/
def written (s : Statistic) : Except String String := s.toValue.writtenText

end Statistic

structure Column where
  name : String
  typeText : String
  role : Role
  /-- Keyspace and name of the table, once the column belongs to one. -/
  keyspace : Option String
  table : Option String
  deriving DecidableEq

namespace Column

/-- The type with one space for every run of blanks. -/
def trimmedType (c : Column) : String := Text.normalize c.typeText

/-- ASCII lower case of a type. -/
def lowerType (s : String) : String := String.ofList (s.toList.map Char.toLower)

def isCounter (c : Column) : Bool := lowerType c.trimmedType == "counter"

def isKey (c : Column) : Bool := c.role.isKey

def fullName (c : Column) : String :=
  c.keyspace.getD "None" ++ "." ++ c.table.getD "None" ++ "." ++ c.name

end Column

structure Keyspace where
  name : String
  replication : Value
  durableWrites : Bool
  deriving DecidableEq

structure UserType where
  keyspace : String
  name : String
  fields : Entries String
  deriving DecidableEq

def UserType.fullName (t : UserType) : String := t.keyspace ++ "." ++ t.name

structure Table where
  keyspace : String
  name : String
  columns : List Column
  partitionKeys : List String
  clusteringColumns : List String
  clusteringOrders : List Order
  stats : Option (Entries Statistic)
  compactStorage : Bool
  deriving DecidableEq

namespace Table

def fullName (t : Table) : String := t.keyspace ++ "." ++ t.name

def hasStats (t : Table) : Bool :=
  match t.stats with
  | none => false
  | some stats => !stats.isEmpty

/-- The statistics of the table, none if they are not known. -/
def statistics (t : Table) : Entries Statistic := t.stats.getD []

def column? (t : Table) (name : String) : Option Column :=
  t.columns.find? (·.name == name)

/-- Names of the key columns in key order. -/
def keyNames (t : Table) : List String := t.partitionKeys ++ t.clusteringColumns

def partitionColumns (t : Table) : List Column := t.partitionKeys.filterMap t.column?

def clusteringKeyColumns (t : Table) : List Column := t.clusteringColumns.filterMap t.column?

/-- The columns outside the primary key, in the order of their declaration. -/
def nonKeyColumns (t : Table) : List Column := t.columns.filter (!·.isKey)

/-- Is this the last column of the partition key? -/
def isLastPartitionKey (t : Table) (c : Column) : Bool :=
  t.partitionKeys.getLast? == some c.name

/-- Does the table count anything? -/
def isCounterTable (t : Table) : Bool := t.columns.any (·.isCounter)

end Table

structure Schema where
  keyspaces : List Keyspace
  types : List UserType
  tables : List Table
  deriving DecidableEq

namespace Schema

/-- Tables by keyspace, keyspaces in the order of their first table. -/
def tablesByKeyspace (s : Schema) : Entries (List Table) :=
  Entries.groupBy (·.keyspace) s.tables

/-- User types by keyspace, keyspaces in the order of their first type. -/
def typesByKeyspace (s : Schema) : Entries (List UserType) :=
  Entries.groupBy (·.keyspace) s.types

end Schema

/-! ## Replication -/

namespace Replication

/-- What a keyspace gets when it names no replication. -/
def standard : Value := .text "'class': 'SimpleStrategy', 'replication_factor': '1'"

/-- A text without one opening brace at its front. -/
def dropOpening : List Char → List Char
  | '{' :: rest => rest
  | cs => cs

/-- Text between the braces, blanks at the ends and one pair of braces dropped. -/
def bodyOfText (s : String) : String :=
  let inner := dropOpening (Text.trimWhile Text.isBlank s.toList)
  let inner := (Text.before? ['}'] inner).getD inner
  String.ofList (Text.trimWhile Text.isBlank inner)

/-- An entry of a mapping between the braces. -/
def entryText (entry : Value × Value) : Except String String := do
  let key ← entry.1.writtenText
  let value ← entry.2.writtenText
  return "'" ++ key ++ "': '" ++ value ++ "'"

/-- Why a replication has no text between its braces. -/
inductive Fault
  /-- It is neither a text nor a mapping. -/
  | noItems (kind : String)
  /-- A number in it is not written. -/
  | unwritten (reason : String)
  deriving DecidableEq

/-- Text between the braces of a replication. -/
def body : Value → Except Fault String
  | .text s => .ok (bodyOfText s)
  | .map entries => (Text.joinWith ", " <$> entries.mapM entryText).mapError .unwritten
  | value => .error (.noItems value.typeTitle)

def body? (value : Value) : Option String := (body value).toOption

theorem body?_eq_some_iff {value : Value} {text : String} :
    body? value = some text ↔ body value = .ok text := by
  unfold body?
  cases body value <;> simp [Except.toOption]

theorem body?_eq_none_iff {value : Value} :
    body? value = none ↔ ∃ fault, body value = .error fault := by
  unfold body?
  cases body value <;> simp [Except.toOption]

/-- An entry of which every number can be written. -/
def plainEntry (entry : Value × Value) : String :=
  "'" ++ entry.1.plainText ++ "': '" ++ entry.2.plainText ++ "'"

theorem entryText_eq (entry : Value × Value) :
    entryText entry =
      if entry.1.isWritable && entry.2.isWritable then .ok (plainEntry entry)
      else .error (Digit.tooMany "") := by
  unfold entryText Value.writtenText
  cases entry.1.isWritable <;> cases entry.2.isWritable <;> rfl

theorem mapM_entryText (entries : List (Value × Value)) :
    entries.mapM entryText =
      if Value.entriesWritable entries then .ok (entries.map plainEntry)
      else .error (Digit.tooMany "") := by
  induction entries with
  | nil => rfl
  | cons entry rest ih =>
      rw [List.mapM_cons, ih, entryText_eq, Value.entriesWritable]
      cases entry.1.isWritable <;> cases entry.2.isWritable <;>
        cases Value.entriesWritable rest <;> rfl

/-- A mapping has a text exactly when every number in it can be written. -/
theorem body_map (entries : List (Value × Value)) :
    body (.map entries) =
      if Value.entriesWritable entries then .ok (Text.joinWith ", " (entries.map plainEntry))
      else .error (.unwritten (Digit.tooMany "")) := by
  rw [body, mapM_entryText]
  cases Value.entriesWritable entries <;> rfl

end Replication
end CqlWorkload
