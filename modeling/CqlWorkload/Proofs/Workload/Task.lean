import CqlWorkload.Proofs.Binding.Growth
import CqlWorkload.Proofs.Schema.Keys

/-!
# Tasks of a component

A component asks for one operation for each element of a schema that it applies
to.  A task is such an element together with what is asked for it: its needs, its
statement, its timeout and its ratio are set out here as they should be, apart
from the steps that carry it out.

**Order.** The tasks of a component follow the declarations of the schema.  Types
and tables that are created are taken keyspace by keyspace, in the order of the
first of each (`requests_eq`).

**Identity.** In a sound schema the tasks of a component have different owners.
-/

namespace CqlWorkload

/-- An operation that is asked for an element of a schema. -/
inductive Task
  | createKeyspace (k : Keyspace)
  | createType (t : UserType)
  | createTable (t : Table)
  | dropType (t : UserType)
  | dropTable (t : Table)
  | dropKeyspace (k : Keyspace)
  | truncate (t : Table)
  | insert (t : Table)
  | select (t : Table)
  | scan (t : Table)
  | update (t : Table)

namespace Task

def component : Task → Component
  | .createKeyspace _ => .schemaKeyspaces
  | .createType _ => .schemaTypes
  | .createTable _ => .schemaTables
  | .dropType _ => .dropTypes
  | .dropTable _ => .dropTables
  | .dropKeyspace _ => .dropKeyspaces
  | .truncate _ => .truncateTables
  | .insert _ => .insert
  | .select _ => .select
  | .scan _ => .scan
  | .update _ => .update

def element : Task → Element
  | .createKeyspace k | .dropKeyspace k => .keyspace k
  | .createType t | .dropType t => .userType t
  | .createTable t | .dropTable t | .truncate t | .insert t | .select t | .scan t | .update t =>
    .table t

/-- The kind of operation whose timeout counts. -/
def kind : Task → TimeoutKind
  | .createKeyspace _ | .createType _ | .createTable _ => .create
  | .dropType _ | .dropTable _ | .dropKeyspace _ => .drop
  | .truncate _ => .truncate
  | .insert _ => .insert
  | .select _ => .select
  | .scan _ => .scan
  | .update _ => .update

/-- Only statements with placeholders are prepared. -/
def form : Task → Form
  | .insert _ | .select _ | .scan _ | .update _ => .prepared
  | _ => .simple

/-- Writes have the write ratio of their table and reads its read ratio. -/
def ratio : Task → Except Failure (Option Int)
  | .insert t | .update t => some <$> t.writeRatio
  | .select t | .scan t => some <$> t.readRatio
  | _ => .ok none

/-- The needs of a statement, in the order of its placeholders. -/
def needs (multiplier : Double) : Task → List Need
  | .insert t => t.columns.map (t.insertNeed multiplier)
  | .select t => t.keyColumns.map .plain
  | .scan t => t.partitionColumns.map .plain
  | .update t => (t.nonKeyColumns ++ t.keyColumns).map .plain
  | _ => []

/-- The statement of a task over given bindings of its needs. -/
def statement (multiplier : Double) (bound : Need → Binding) : Task → Statement
  | .createKeyspace k =>
    .createKeyspace k.name ((Replication.body? k.replication).getD "") k.durableWrites
  | .createType t => .createType t.keyspace t.name t.fields
  | .createTable t => Context.tableStatement t
  | .dropType t => .drop "type" t.fullName
  | .dropTable t => .drop "table" t.fullName
  | .dropKeyspace k => .drop "keyspace" k.name
  | .truncate t => .truncate t.fullName
  | .insert t =>
    .insert t.keyspace t.name (t.columns.map (·.name))
      (t.columns.map fun c => (bound (t.insertNeed multiplier c)).placeholder)
  | .select t =>
    .select t.keyspace t.name (Context.predicateText bound t.keyColumns) Statement.defaultLimit
  | .scan t =>
    .select t.keyspace t.name (Context.predicateText bound t.partitionColumns)
      Statement.defaultLimit
  | .update t =>
    .update t.keyspace t.name (Context.assignmentsText bound t.nonKeyColumns)
      (Context.predicateText bound t.keyColumns)

/-- A statement depends on the bindings of its needs only. -/
theorem statement_congr {multiplier : Double} {first second : Need → Binding} (task : Task)
    (h : ∀ need, need ∈ task.needs multiplier → first need = second need) :
    task.statement multiplier first = task.statement multiplier second := by
  cases task with
  | insert t =>
      have hp : (t.columns.map fun c => (first (t.insertNeed multiplier c)).placeholder) =
          t.columns.map fun c => (second (t.insertNeed multiplier c)).placeholder :=
        List.map_congr_left fun c hc => by rw [h _ (List.mem_map.mpr ⟨c, hc, rfl⟩)]
      rw [statement, statement, hp]
  | select t | scan t =>
      have hp := Context.predicateText_congr fun c hc => h _ (List.mem_map.mpr ⟨c, hc, rfl⟩)
      rw [statement, statement, hp]
  | update t =>
      have hc : ∀ c, c ∈ t.nonKeyColumns ++ t.keyColumns →
          first (.plain c) = second (.plain c) :=
        fun c hc => h _ (List.mem_map.mpr ⟨c, hc, rfl⟩)
      rw [statement, statement,
        Context.assignmentsText_congr fun c hm => hc c (List.mem_append_left _ hm),
        Context.predicateText_congr fun c hm => hc c (List.mem_append_right _ hm)]
  | _ => rfl

/-- Tables that are never read nor written may be left out when they are created,
and tables without columns outside the key are left out when they are updated. -/
def applies (c : Config) : Task → Bool
  | .createTable t => !(c.elideUnusedTables && t.totalRatio.toOption == some 0)
  | .update t => !t.nonKeyColumns.isEmpty
  | _ => true

/-- The hints that the name of the operation is asked for with. -/
def hints (block : String) (task : Task) : List (String × String) :=
  [("optype", task.component.opType), ("blockname", block)]

def make (ctx : Context) (block : String) : Task → Step (Option Op)
  | .createKeyspace k => ctx.createKeyspace k
  | .createType t => ctx.createType t
  | .createTable t => ctx.createTable block t
  | .dropType t => ctx.simpleOp .drop (.drop "type" t.fullName)
  | .dropTable t => ctx.simpleOp .drop (.drop "table" t.fullName)
  | .dropKeyspace k => ctx.simpleOp .drop (.drop "keyspace" k.name)
  | .truncate t => ctx.simpleOp .truncate (.truncate t.fullName)
  | .insert t => ctx.insertOp t
  | .select t => ctx.queryOp .select 0 t
  | .scan t => ctx.queryOp .scan t.partitionKeys.length t
  | .update t => ctx.updateOp t

def request (ctx : Context) (block : String) (task : Task) : Request :=
  ⟨task.element, task.make ctx block⟩

end Task

/-! ## The tasks of a schema -/

/-- The tasks of a component, in their order. -/
def Component.tasks (s : Schema) : Component → List Task
  | .schemaKeyspaces => s.keyspaces.map .createKeyspace
  | .schemaTypes => (Entries.byFirst (·.keyspace) s.types).map .createType
  | .schemaTables => (Entries.byFirst (·.keyspace) s.tables).map .createTable
  | .dropTypes => s.types.map .dropType
  | .dropTables => s.tables.map .dropTable
  | .dropKeyspaces => s.keyspaces.map .dropKeyspace
  | .truncateTables => s.tables.map .truncate
  | .insert => s.tables.map .insert
  | .select => s.tables.map .select
  | .scan => s.tables.map .scan
  | .update => s.tables.map .update

/-- The tasks of some components that a configuration has carried out. -/
def Config.tasks (c : Config) (s : Schema) (components : List Component) : List Task :=
  components.flatMap fun component => (component.tasks s).filter (·.applies c)

/-- The needs of all operations, in the order of the document. -/
def Config.needs (c : Config) (s : Schema) : List Need :=
  c.blockplan.flatMap fun planned =>
    (c.tasks s planned.2).flatMap (·.needs c.partitionMultiplier)

/-- **The requests of a component are those of its tasks.** -/
theorem Context.requests_eq (ctx : Context) (block : String) (s : Schema)
    (component : Component) :
    ctx.requests block s component = (component.tasks s).map (·.request ctx block) := by
  cases component with
  | schemaTypes =>
      rw [requests, inGroups, Schema.typesByKeyspace, Entries.flatMap_groupBy,
        Component.tasks, List.map_map]
      rfl
  | schemaTables =>
      rw [requests, inGroups, Schema.tablesByKeyspace, Entries.flatMap_groupBy,
        Component.tasks, List.map_map]
      rfl
  | _ =>
      rw [requests, Component.tasks, List.map_map]
      rfl

theorem Component.component_of_mem_tasks {s : Schema} {component : Component} {task : Task}
    (h : task ∈ component.tasks s) : task.component = component := by
  cases component <;>
    (obtain ⟨x, _, rfl⟩ := List.mem_map.mp h
     rfl)

/-! ## Identity -/

theorem Element.keyspace_injective : Function.Injective Element.keyspace :=
  fun _ _ h => by injection h

theorem Element.userType_injective : Function.Injective Element.userType :=
  fun _ _ h => by injection h

theorem Element.table_injective : Function.Injective Element.table :=
  fun _ _ h => by injection h

namespace Schema.Sound

variable {s : Schema}

theorem mem_elements_cases {e : Element} (he : e ∈ Registry.elements s) :
    (∃ k, k ∈ s.keyspaces ∧ e = .keyspace k) ∨ (∃ t, t ∈ s.types ∧ e = .userType t) ∨
      (∃ t, t ∈ s.tables ∧ e = .table t) ∨ ∃ c, s.HasColumn c ∧ e = .column c := by
  simp only [Registry.elements, List.mem_append, List.mem_map, List.mem_flatMap] at he
  rcases he with ((⟨k, hk, rfl⟩ | ⟨t, ht, rfl⟩) | ⟨t, ht, rfl⟩) | ⟨t, ht, c, hc, rfl⟩
  · exact Or.inl ⟨k, hk, rfl⟩
  · exact Or.inr (Or.inl ⟨t, ht, rfl⟩)
  · exact Or.inr (Or.inr (Or.inl ⟨t, ht, rfl⟩))
  · exact Or.inr (Or.inr (Or.inr ⟨c, ⟨t, ht, hc⟩, rfl⟩))

/-- Elements of a sound schema with the same owner are the same. -/
theorem element_eq (h : s.Sound) {a b : Element} (ha : a ∈ Registry.elements s)
    (hb : b ∈ Registry.elements s) (ho : a.owner? = b.owner?) : a = b := by
  rcases mem_elements_cases ha with ⟨k, hk, rfl⟩ | ⟨t, ht, rfl⟩ | ⟨t, ht, rfl⟩ | ⟨c, hc, rfl⟩ <;>
    rcases mem_elements_cases hb with ⟨l, hl, rfl⟩ | ⟨u, hu, rfl⟩ | ⟨u, hu, rfl⟩ | ⟨d, hd, rfl⟩ <;>
    simp only [Element.owner?, Option.some.injEq, Owner.mk.injEq, String.reduceEq, false_and,
      true_and, and_true] at ho
  · rw [h.keyspace_eq hk hl ho]
  · rw [h.userType_eq ht hu ho.1 ho.2]
  · rw [h.table_eq ht hu ho.1 ho.2]
  · rw [h.column_eq hc hd ho.1 ho.2.1 ho.2.2]

theorem mem_elements_of_keyspace {k : Keyspace} (h : k ∈ s.keyspaces) :
    .keyspace k ∈ Registry.elements s := by
  simp [Registry.elements, h]

theorem mem_elements_of_userType {t : UserType} (h : t ∈ s.types) :
    .userType t ∈ Registry.elements s := by
  simp [Registry.elements, h]

theorem mem_elements_of_table {t : Table} (h : t ∈ s.tables) :
    .table t ∈ Registry.elements s := by
  simp [Registry.elements, h]

theorem element_mem {component : Component} {task : Task} (h : task ∈ component.tasks s) :
    task.element ∈ Registry.elements s := by
  cases component with
  | schemaKeyspaces | dropKeyspaces =>
      obtain ⟨k, hk, rfl⟩ := List.mem_map.mp h
      exact mem_elements_of_keyspace hk
  | schemaTypes =>
      obtain ⟨t, ht, rfl⟩ := List.mem_map.mp h
      exact mem_elements_of_userType ((Entries.mem_byFirst _).mp ht)
  | dropTypes =>
      obtain ⟨t, ht, rfl⟩ := List.mem_map.mp h
      exact mem_elements_of_userType ht
  | schemaTables =>
      obtain ⟨t, ht, rfl⟩ := List.mem_map.mp h
      exact mem_elements_of_table ((Entries.mem_byFirst _).mp ht)
  | _ =>
      obtain ⟨t, ht, rfl⟩ := List.mem_map.mp h
      exact mem_elements_of_table ht

theorem mem_tables_of_mem_tasks {component : Component} {task : Task} {t : Table}
    (h : task ∈ component.tasks s) (ht : task.element = .table t) : t ∈ s.tables := by
  have hm := element_mem h
  rw [ht] at hm
  simpa [Registry.elements] using hm

theorem mem_types_of_mem_tasks {component : Component} {task : Task} {t : UserType}
    (h : task ∈ component.tasks s) (ht : task.element = .userType t) : t ∈ s.types := by
  have hm := element_mem h
  rw [ht] at hm
  simpa [Registry.elements] using hm

/-- A component of a sound schema is about each element once. -/
theorem nodup_elements (h : s.Sound) (component : Component) :
    ((component.tasks s).map (·.element)).Nodup := by
  cases component <;> rw [Component.tasks, List.map_map]
  case schemaKeyspaces | dropKeyspaces => exact h.nodup_keyspaces.map Element.keyspace_injective
  case schemaTypes =>
    exact (Entries.nodup_byFirst _ h.nodup_types).map Element.userType_injective
  case dropTypes => exact h.nodup_types.map Element.userType_injective
  case schemaTables =>
    exact (Entries.nodup_byFirst _ h.nodup_tables).map Element.table_injective
  all_goals exact h.nodup_tables.map Element.table_injective

end Schema.Sound

/-! ## Owners of operations -/

namespace Task

def owner? (block : String) (task : Task) : Option Owner :=
  task.element.ownerIn? (task.hints block)

theorem ofHints_hints (block : String) (task : Task) :
    Role.ofHints (task.hints block) = task.hints block :=
  Role.ofHints_pair (by decide : Text.lowerText "optype" = "optype")
    (by decide : Text.lowerText "blockname" = "blockname") (by decide : "optype" ≠ "blockname")

theorem owner?_eq (block : String) (task : Task) :
    task.owner? block = task.element.owner?.map fun base =>
      { base with role := [("blockname", block), ("optype", task.component.opType)] } := by
  have hplain : Role.IsPlain (task.hints block) := by
    show ∀ key, key ∈ ["optype", "blockname"] → ∀ field, field ∈ Role.attributes →
      Text.upperText key ≠ field.text
    decide
  have hlt : "blockname" < "optype" := by decide
  have hsorted : Text.sortedEntries (task.hints block) =
      [("blockname", block), ("optype", task.component.opType)] := if_pos hlt
  rw [owner?, Element.ownerIn?, ofHints_hints]
  congr 1
  funext base
  rw [Owner.inRole_eq base hplain, hsorted]

/-- An operation has an owner with the attributes of its element. -/
theorem exists_owner (block : String) (task : Task) :
    ∃ base, task.element.owner? = some base ∧ base.role = [] ∧ task.owner? block =
      some { base with role := [("blockname", block), ("optype", task.component.opType)] } := by
  rw [owner?_eq]
  cases task <;> exact ⟨_, rfl, rfl, rfl⟩

/-- Operations of one owner are about the same element in the same block. -/
theorem owner?_inj {a b : Task} {first second : String}
    (h : a.owner? first = b.owner? second) :
    a.element.owner? = b.element.owner? ∧ first = second := by
  obtain ⟨base, hbase, hrole, ha⟩ := exists_owner first a
  obtain ⟨other, hother, horole, hb⟩ := exists_owner second b
  rw [ha, hb, Option.some.injEq, Owner.mk.injEq] at h
  obtain ⟨hk, hs, ht, hn, hr⟩ := h
  refine ⟨?_, by simpa using (List.cons.inj hr).1⟩
  rw [hbase, hother, Option.some.injEq]
  cases base
  cases other
  simp_all

end Task

/-- The operations of a component of a sound schema have different owners. -/
theorem Schema.Sound.nodup_owners {s : Schema} (h : s.Sound) (component : Component)
    (block : String) : ((component.tasks s).map (·.owner? block)).Nodup := by
  have hn : (component.tasks s).Nodup := (h.nodup_elements component).of_map
  refine List.Nodup.map_on (fun a ha b hb he => ?_) hn
  have helement := h.element_eq (element_mem ha) (element_mem hb) (Task.owner?_inj he).1
  exact List.inj_on_of_nodup_map (h.nodup_elements component) ha hb helement

/-- A task about a table with well-formed keys, or about something else. -/
def Task.IsKeyed (task : Task) : Prop := ∀ t, task.element = .table t → t.WellKeyed

theorem Schema.Sound.isKeyed {s : Schema} (h : s.Sound) {component : Component} {task : Task}
    (hm : task ∈ component.tasks s) : task.IsKeyed :=
  fun t ht => (h.tables t (mem_tables_of_mem_tasks hm ht)).wellKeyed

end CqlWorkload
