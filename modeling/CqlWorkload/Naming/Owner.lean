import CqlWorkload.Naming.Template
import CqlWorkload.Schema.Basic
import CqlWorkload.Text.Case
import CqlWorkload.Text.Sorted

/-!
# Owners of names

A name is issued for an element of a schema in a role.  The role is a table of
hints, such as the type of an operation and the name of its block; hints may
also stand in for the attributes of the element itself.
-/

namespace CqlWorkload

/-- Something that a name may be asked for. -/
inductive Element
  | keyspace (k : Keyspace)
  | userType (t : UserType)
  | table (t : Table)
  | column (c : Column)
  | text (s : String)

/-- The element and role that a name was issued for. -/
structure Owner where
  kind : String
  keyspace : Option String
  table : Option String
  name : String
  role : List (String × String)
  deriving DecidableEq

namespace Owner

/-- Do two owners stand for the same element, whatever their roles? -/
def sameElement (a b : Owner) : Bool :=
  a.kind == b.kind && a.keyspace == b.keyspace && a.table == b.table && a.name == b.name

/-- An owner as messages describe it. -/
def description (o : Owner) : String :=
  let parts := [o.keyspace.getD "", o.table.getD "", o.name].filter (· != "")
  o.kind ++ " '" ++ Text.joinWith "." parts ++ "'" ++
    if o.role.isEmpty then ""
    else " (" ++ Text.joinWith ", " (o.role.map fun hint => hint.1 ++ "=" ++ hint.2) ++ ")"

end Owner

namespace Element

/-- The owner of an element without a role; a plain text cannot be named. -/
def owner? : Element → Option Owner
  | .keyspace k => some ⟨"keyspace", none, none, k.name, []⟩
  | .userType t => some ⟨"type", some t.keyspace, none, t.name, []⟩
  | .table t => some ⟨"table", some t.keyspace, none, t.name, []⟩
  | .column c => some ⟨"column", c.keyspace, c.table, c.name, []⟩
  | .text _ => none

def typeText? : Element → Option String
  | .column c => some c.trimmedType
  | _ => none

end Element

/-! ## Roles -/

namespace Role

/-- Hints given as values by their texts; a null hint counts as absent. -/
def textsOf (hints : Entries Value) : List (String × String) :=
  hints.filterMap fun hint =>
    if hint.2 = .null then none else some (hint.1, hint.2.plainText)

/-- Hints with their names in lower case; of two that become the same the later
one counts. -/
def ofHints (hints : List (String × String)) : Entries String :=
  Entries.putAll [] (hints.map fun hint => (Text.lowerText hint.1, hint.2))

/-- The hint for a field: the last one whose name in upper case is the field's. -/
def hint? (role : Entries String) (field : Field) : Option String :=
  (role.reverse.find? fun hint => Text.upperText hint.1 == field.text).map (·.2)

end Role

namespace Owner

/-- The owner in a role, whose hints stand in for attributes of the element. -/
def inRole (base : Owner) (role : Entries String) : Owner where
  kind := (Role.hint? role .kind).getD base.kind
  keyspace := (Role.hint? role .keyspace).or base.keyspace
  table := (Role.hint? role .table).or base.table
  name := (Role.hint? role .name).getD base.name
  role := Text.sortedEntries role

/-- The value that a field has for an owner in a role. -/
def value (owner : Owner) (typeText : Option String) (role : Entries String) :
    Field → Option String
  | .kind => some owner.kind
  | .keyspace => owner.keyspace
  | .table => owner.table
  | .name => some owner.name
  | .typedef => (Role.hint? role .typedef).or typeText
  | field => Role.hint? role field

end Owner
end CqlWorkload
