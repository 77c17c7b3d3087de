import CqlWorkload.Workload.Op
import CqlWorkload.Workload.Predicate

/-!
# Operations of a component

For every element of a schema that a component applies to there is one request
for an operation, in the order of the schema; a request may turn out to yield
none.  The operation is complete before its name is asked for.
-/

namespace CqlWorkload

/-- A request for the operation of an element. -/
structure Request where
  element : Element
  make : Step (Option Op)

/-- What the name of an operation says about it. -/
def Component.opType : Component → String
  | .schemaKeyspaces => "create-keyspace"
  | .schemaTypes => "create-type"
  | .schemaTables => "create-table"
  | .dropTypes => "drop-type"
  | .dropTables => "drop-table"
  | .dropKeyspaces => "drop-keyspace"
  | .truncateTables => "truncate"
  | .insert => "insert"
  | .select => "select"
  | .scan => "scan"
  | .update => "update"

namespace Context

/-- The timeout that is configured under the name of a kind. -/
def timeout (ctx : Context) (kind : TimeoutKind) : Except Failure Double :=
  match ctx.config.timeouts.entries.get? kind.text with
  | some seconds => .ok seconds
  | none => .error (.unknownTimeout kind.text)

@[simp] theorem timeout_eq (ctx : Context) (kind : TimeoutKind) :
    ctx.timeout kind = .ok (ctx.config.timeouts.get kind) := by
  rw [timeout, Timeouts.get?_entries]

/-- The operation of a statement. -/
def opOf (ctx : Context) (form : Form) (kind : TimeoutKind) (statement : Statement)
    (ratio : Except Failure (Option Int)) : Step (Option Op) := do
  let text ← Step.ofExcept statement.text
  let timeout ← Step.ofExcept (ctx.timeout kind)
  let ratio ← Step.ofExcept ratio
  pure (some ⟨form, text, kind, some timeout, ratio⟩)

/-- The operation of a statement that is sent as it is. -/
def simpleOp (ctx : Context) (kind : TimeoutKind) (statement : Statement) : Step (Option Op) :=
  ctx.opOf .simple kind statement (.ok none)

/-- The operation of a prepared statement with its ratio. -/
def preparedOp (ctx : Context) (kind : TimeoutKind) (statement : Statement)
    (ratio : Except Failure Int) : Step (Option Op) :=
  ctx.opOf .prepared kind statement (some <$> ratio)

/-- The body of the replication of a keyspace. -/
def replicationBody (k : Keyspace) : Except Failure String :=
  (Replication.body k.replication).mapError .ofReplication

def createKeyspace (ctx : Context) (k : Keyspace) : Step (Option Op) := do
  let body ← Step.ofExcept (replicationBody k)
  ctx.simpleOp .create (.createKeyspace k.name body k.durableWrites)

def createType (ctx : Context) (t : UserType) : Step (Option Op) :=
  ctx.simpleOp .create (.createType t.keyspace t.name t.fields)

def tableStatement (t : Table) : Statement :=
  .createTable t.keyspace t.name (t.columns.map fun c => (c.name, c.trimmedType))
    t.partitionKeys t.clusteringColumns (t.clusteringOrders.map (·.text))

/-- Is a table left out because it is never read nor written? -/
def isElided (ctx : Context) (t : Table) : Except Failure Bool :=
  if ctx.config.elideUnusedTables then (· == 0) <$> t.totalRatio else .ok false

def createTable (ctx : Context) (block : String) (t : Table) : Step (Option Op) := do
  if ← Step.ofExcept (ctx.isElided t) then
    Step.report (Log.warning (s!"eliding table {t.fullName} from block '{block}' since its " ++
      "total op ratio was 0; other ops in the workload may still reference it"))
    pure none
  else
    if t.compactStorage then
      Step.report (Log.warning (s!"COMPACT STORAGE is not supported, eliding this option for " ++
        s!"table '{t.fullName}'"))
    ctx.simpleOp .create (tableStatement t)

def insertBinding (ctx : Context) (t : Table) (c : Column) : Step Binding :=
  if t.isLastPartitionKey c then ctx.bindDivided t c else ctx.bindPlain c

def insertPlaceholders (ctx : Context) (t : Table) : List Column → Step (List String)
  | [] => pure []
  | c :: rest => do
    let b ← ctx.insertBinding t c
    let placeholders ← insertPlaceholders ctx t rest
    pure (b.placeholder :: placeholders)

def insertOp (ctx : Context) (t : Table) : Step (Option Op) := do
  if t.isCounterTable then
    Step.report (Log.warning (s!"counter table '{t.fullName}' cannot be written with insert; " ++
      "emitting the insert op anyway"))
  let placeholders ← ctx.insertPlaceholders t t.columns
  ctx.preparedOp .insert
    (.insert t.keyspace t.name (t.columns.map (·.name)) placeholders) t.writeRatio

/-- A query of a table over as many key columns as a count asks for. -/
def queryOp (ctx : Context) (kind : TimeoutKind) (count : Int) (t : Table) :
    Step (Option Op) := do
  let predicate ← ctx.predicate t count
  ctx.preparedOp kind (.select t.keyspace t.name predicate Statement.defaultLimit) t.readRatio

def updateOp (ctx : Context) (t : Table) : Step (Option Op) := do
  if t.nonKeyColumns.isEmpty then
    Step.report (Log.warning (s!"table '{t.fullName}' has no non-key columns to update; " ++
      "no update op generated"))
    pure none
  else
    let assignments ← ctx.assignments t
    let predicate ← ctx.predicate t 0
    ctx.preparedOp .update (.update t.keyspace t.name assignments predicate) t.writeRatio

/-- The tables or types of a grouping, one group after the other. -/
def inGroups {α : Type} (groups : Entries (List α)) : List α := groups.flatMap (·.2)

/-- The requests of a component for a schema. -/
def requests (ctx : Context) (block : String) (s : Schema) : Component → List Request
  | .schemaKeyspaces => s.keyspaces.map fun k => ⟨.keyspace k, ctx.createKeyspace k⟩
  | .schemaTypes =>
    (inGroups s.typesByKeyspace).map fun t => ⟨.userType t, ctx.createType t⟩
  | .schemaTables =>
    (inGroups s.tablesByKeyspace).map fun t => ⟨.table t, ctx.createTable block t⟩
  | .dropTypes =>
    s.types.map fun t => ⟨.userType t, ctx.simpleOp .drop (.drop "type" t.fullName)⟩
  | .dropTables =>
    s.tables.map fun t => ⟨.table t, ctx.simpleOp .drop (.drop "table" t.fullName)⟩
  | .dropKeyspaces =>
    s.keyspaces.map fun k => ⟨.keyspace k, ctx.simpleOp .drop (.drop "keyspace" k.name)⟩
  | .truncateTables =>
    s.tables.map fun t => ⟨.table t, ctx.simpleOp .truncate (.truncate t.fullName)⟩
  | .insert => s.tables.map fun t => ⟨.table t, ctx.insertOp t⟩
  | .select => s.tables.map fun t => ⟨.table t, ctx.queryOp .select 0 t⟩
  | .scan =>
    s.tables.map fun t => ⟨.table t, ctx.queryOp .scan t.partitionKeys.length t⟩
  | .update => s.tables.map fun t => ⟨.table t, ctx.updateOp t⟩

/-- The operations of requests, put on top of those before them. -/
def fulfil (component : Component) (block : String) (before : Entries Op) :
    List Request → Step (Entries Op)
  | [] => pure before
  | request :: rest => do
    match ← request.make with
    | none => fulfil component block before rest
    | some op =>
      let name ← Step.nameFor request.element
        [("optype", component.opType), ("blockname", block)]
      fulfil component block (before.put name op) rest

/-- The operations of a component. -/
def generate (ctx : Context) (s : Schema) (block : String) (component : Component) :
    Step (Entries Op) :=
  fulfil component block [] (ctx.requests block s component)

end Context
end CqlWorkload
