/-!
# Components of a block

A block plan names the components that a block is made of.  Each component has a
tag and yields one operation for every element of the schema that it applies to.
-/

namespace CqlWorkload

/-- The kinds of operations that a block may be planned to hold. -/
inductive Component
  | schemaKeyspaces
  | schemaTypes
  | schemaTables
  | dropTypes
  | dropTables
  | dropKeyspaces
  | truncateTables
  | insert
  | select
  | scan
  | update
  deriving DecidableEq

namespace Component

def tag : Component → String
  | .schemaKeyspaces => "schema-keyspaces"
  | .schemaTypes => "schema-types"
  | .schemaTables => "schema-tables"
  | .dropTypes => "drop-types"
  | .dropTables => "drop-tables"
  | .dropKeyspaces => "drop-keyspaces"
  | .truncateTables => "truncate-tables"
  | .insert => "insert"
  | .select => "select"
  | .scan => "scan-10"
  | .update => "update"

def all : List Component :=
  [.schemaKeyspaces, .schemaTypes, .schemaTables, .dropTypes, .dropTables, .dropKeyspaces,
    .truncateTables, .insert, .select, .scan, .update]

/-- The known tags, in the order in which messages list them. -/
def tags : List String := all.map tag

def ofTag? (s : String) : Option Component := all.find? (·.tag == s)

end Component
end CqlWorkload
