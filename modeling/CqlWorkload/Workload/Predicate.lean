import CqlWorkload.Binding.Accumulator
import CqlWorkload.Statement

/-!
# Predicates and assignments

A predicate qualifies key columns of a table, partition key first; it never
leaves out a column of the partition key.  Assignments set the columns outside
the key; a counter is set to itself plus a value.
-/

namespace CqlWorkload

namespace Table

def keyColumns (t : Table) : List Column := t.partitionColumns ++ t.clusteringKeyColumns

/-- How many of so many key columns a count asks for: all for zero, that many
for a positive count, and all but that many for a negative one. -/
def requestedKeys (keys : Nat) (count : Int) : Int :=
  if 0 < count then min count keys else if count < 0 then keys + count else keys

/-- The key columns that a predicate qualifies. -/
def predicateColumns (t : Table) (count : Int) : List Column :=
  t.keyColumns.take
    (max (requestedKeys t.keyColumns.length count) t.partitionKeys.length).toNat

/-- A note on a count that would leave out columns of the partition key. -/
def predicateLog (t : Table) (count : Int) : Log :=
  let keep := requestedKeys t.keyColumns.length count
  let least := t.partitionKeys.length
  if keep < least then
    Log.debug (s!"minimum keycount for {t.fullName} adjusted from " ++ intText keep ++ " to " ++
      FloatLayout.digitsText least)
  else []

end Table

namespace Context

/-- One text for every column, from its binding. -/
def eachBound (ctx : Context) (write : Column → Binding → String) :
    List Column → Step (List String)
  | [] => pure []
  | c :: rest => do
    let b ← ctx.bindPlain c
    let texts ← eachBound ctx write rest
    pure (write c b :: texts)

/-- A column set equal to the placeholder of its binding. -/
def equation (c : Column) (b : Binding) : String := c.name ++ "=" ++ b.placeholder

/-- A column assigned the placeholder of its binding. -/
def assignment (c : Column) (b : Binding) : String :=
  if c.isCounter then c.name ++ "=" ++ c.name ++ "+" ++ b.placeholder else equation c b

/-- The predicate of a table over as many key columns as a count asks for. -/
def predicate (ctx : Context) (t : Table) (count : Int) : Step String := do
  Step.report (t.predicateLog count)
  let clauses ← ctx.eachBound equation (t.predicateColumns count)
  pure (Text.joinWith Statement.predicateJoiner clauses)

/-- The assignments of a table to its columns outside the key. -/
def assignments (ctx : Context) (t : Table) : Step String := do
  let parts ← ctx.eachBound assignment t.nonKeyColumns
  pure (Text.joinWith ", " parts)

end Context
end CqlWorkload
