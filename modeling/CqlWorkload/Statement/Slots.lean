import CqlWorkload.Statement

/-!
# Statements from named slots

A statement can be built from a table of its slots.  A name that is no slot of
the record is refused, then a slot that is missing and has no value of its own to
fall back to, and then a slot that is empty.
-/

namespace CqlWorkload.Statement

/-- The names of the slots that a record needs, and of those that it can do without. -/
structure Shape where
  record : String
  required : List String
  /-- Slots with a value to fall back to. -/
  optional : List String
  /-- May those be empty? -/
  isLoose : Bool

def shape? : String → Option Shape
  | "CreateKeyspace" =>
    some ⟨"CreateKeyspaceStatement", ["keyspace", "replication"], ["durable_writes"], false⟩
  | "CreateType" => some ⟨"CreateTypeStatement", ["keyspace", "name", "fields"], [], false⟩
  | "CreateTable" =>
    some ⟨"CreateTableStatement", ["keyspace", "table", "columns", "partition_keys"],
      ["clustering_columns", "clustering_orders"], true⟩
  | "Drop" => some ⟨"DropStatement", ["kind", "target"], [], false⟩
  | "Truncate" => some ⟨"TruncateStatement", ["target"], [], false⟩
  | "Insert" =>
    some ⟨"InsertStatement", ["keyspace", "table", "columns", "placeholders"], [], false⟩
  | "Select" => some ⟨"SelectStatement", ["keyspace", "table", "predicate"], ["limit"], false⟩
  | "Update" =>
    some ⟨"UpdateStatement", ["keyspace", "table", "assignments", "predicate"], [], false⟩
  | _ => none

/-- Check the names of slots against a shape. -/
def Shape.check (shape : Shape) (slots : Entries Value) : Option Misfit :=
  let known := shape.required ++ shape.optional
  match slots.keys.find? (!known.contains ·) with
  | some name => some (.unexpectedName shape.record name)
  | none =>
    match shape.required.filter (!slots.keys.contains ·) with
    | [] => none
    | missing => some (.missingNames shape.record missing)

/-- Is the value a text or a list without anything in it? -/
def isBlankSlot : Value → Bool
  | .text s => s == ""
  | .list items => items.isEmpty
  | _ => false

/-- The first slot that must not be empty and is. -/
def Shape.emptySlot? (shape : Shape) (slots : Entries Value) : Option String :=
  (shape.required ++ if shape.isLoose then [] else shape.optional).find? fun name =>
    (slots.get? name).any isBlankSlot

/-- The items of a slot that holds a list; those of a text are its characters. -/
def itemsOf : Value → List Value
  | .list items => items
  | .text s => s.toList.map fun c => .text (String.ofList [c])
  | _ => []

def textSlot (slots : Entries Value) (name : String) : String :=
  ((slots.get? name).map (·.plainText)).getD ""

def listSlot (slots : Entries Value) (name : String) : List String :=
  ((slots.get? name).map fun value => (itemsOf value).map (·.plainText)).getD []

/-- A pair of texts given as a list of two. -/
def pairOf (value : Value) : String × String :=
  match itemsOf value with
  | [a, b] => (a.plainText, b.plainText)
  | _ => ("", "")

def pairSlot (slots : Entries Value) (name : String) : List (String × String) :=
  ((slots.get? name).map fun value => (itemsOf value).map pairOf).getD []

/-- The statement of a record with the given slots. -/
def ofRecord (slots : Entries Value) (record : String) : Statement :=
  let text := textSlot slots
  let list := listSlot slots
  match record with
  | "CreateKeyspaceStatement" =>
    .createKeyspace (text "keyspace") (text "replication")
      (((slots.get? "durable_writes").map (·.isTruthy)).getD true)
  | "CreateTypeStatement" =>
    .createType (text "keyspace") (text "name") (pairSlot slots "fields")
  | "CreateTableStatement" =>
    .createTable (text "keyspace") (text "table") (pairSlot slots "columns")
      (list "partition_keys") (list "clustering_columns") (list "clustering_orders")
  | "DropStatement" => .drop (text "kind") (text "target")
  | "TruncateStatement" => .truncate (text "target")
  | "InsertStatement" =>
    .insert (text "keyspace") (text "table") (list "columns") (list "placeholders")
  | "SelectStatement" =>
    .select (text "keyspace") (text "table") (text "predicate")
      (((slots.get? "limit").map (·.plainText)).getD defaultLimit)
  | _ => .update (text "keyspace") (text "table") (text "assignments") (text "predicate")

def textOfSlots (shape : Shape) (slots : Entries Value) : Except Failure String :=
  match shape.check slots, shape.emptySlot? slots with
  | some m, _ => .error (.unfit m)
  | none, some name => .error (.badStatement (.emptySlot shape.record name))
  | none, none => do
    let text ← (ofRecord slots shape.record).text
    if slots.all (·.2.isWritable) then .ok text
    else .error (.impossibleValue (Digit.tooMany ""))

end CqlWorkload.Statement
