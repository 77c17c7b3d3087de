import CqlWorkload.Proofs.Workload.Demand

/-!
# Shortages of a plan

What a plan demands can be read off the plan and the schema (`Config.demands`).  Every
step of a compile draws on the demands of its part of the plan: binding a column draws
on its recipe, an operation on the recipes of its columns and on the statistics that its
ratio is drawn from, and a block on all of its operations.

**Results.** A compile whose configuration names no transformers returns a workload only
if all demands of the plan are met, and a shortage that it reports is that of one of
them (`Workload.compile_shortages`).

**Untouched columns.** A column that no planned component takes a value for may have any
type, and a table may lack any statistic that no planned component asks for.
-/

namespace CqlWorkload

/-! ## Demands of tasks -/

/-- An insert takes all columns, an update too if there is one outside the key, a select
the key columns, and a scan those of the partition key.  The weight of its kind is asked
for by each of them, the number of partitions by an insert, and both weights by the
elision of tables. -/
def Task.demands (c : Config) : Task → List Demand
  | .createTable t =>
    if c.elideUnusedTables then t.demands [Statistic.readsName, Statistic.writesName] else []
  | .insert t =>
    t.columns.map .recipe ++ t.demands [Statistic.partitionsName, Statistic.writesName]
  | .select t => t.keyColumns.map .recipe ++ t.demands [Statistic.readsName]
  | .scan t => t.partitionColumns.map .recipe ++ t.demands [Statistic.readsName]
  | .update t =>
    if t.nonKeyColumns.isEmpty then []
    else t.columns.map .recipe ++ t.demands [Statistic.writesName]
  | _ => []

/-- The demands of all planned components, in the order of the plan. -/
def Config.demands (c : Config) (s : Schema) : List Demand :=
  c.blockplan.flatMap fun planned =>
    planned.2.flatMap fun component => (component.tasks s).flatMap (·.demands c)

namespace Context

open Step

variable (ctx : Context)

/-! ## Columns -/

theorem drawsOn_bind (c : Column) (modifier : String) (hints : List (String × String)) :
    DrawsOn ctx.libraries [.recipe c] (ctx.bind c modifier hints) := by
  have hrecipe : DrawsOn ctx.libraries [.recipe c]
      (Step.ofExcept (Binding.recipeFor ctx.libraries c)) :=
    .ofExcept (.of_error_iff (Binding.recipeFor_eq_error_iff ctx.libraries c))
  have hexisting : ∀ recipe, DrawsOn ctx.libraries [] (existing recipe) := fun _ _ => .ok _
  refine hrecipe.before fun base => (hexisting _).after fun found => ?_
  cases found with
  | some b => exact .pure b
  | none => exact (DrawsOn.nameFor _ _).after fun name _ => .ok _

theorem drawsOn_bindPlain (c : Column) : DrawsOn ctx.libraries [.recipe c] (ctx.bindPlain c) :=
  ctx.drawsOn_bind c "" []

theorem drawsOn_bindDivided (t : Table) (c : Column) :
    DrawsOn ctx.libraries (t.demands [Statistic.partitionsName] ++ [.recipe c])
      (ctx.bindDivided t c) := by
  rw [bindDivided_eq]
  split
  next hnone =>
    rw [Table.demands, if_neg (by simpa using hnone)]
    exact ctx.drawsOn_bindPlain c
  next hstats =>
    have hmodulo := t.foundFrom_partitionModulo ctx.libraries (by simpa using hstats)
      ctx.config.partitionMultiplier
    refine (DrawsOn.ofExcept hmodulo).bind fun modulo => ?_
    split
    · exact (DrawsOn.report _).after fun _ => ctx.drawsOn_bindPlain c
    · exact (DrawsOn.report _).after fun _ => ctx.drawsOn_bind c _ _

/-- The demands of binding a column for an insert. -/
def insertDemands (t : Table) (c : Column) : List Demand :=
  (if t.isLastPartitionKey c then t.demands [Statistic.partitionsName] else []) ++ [.recipe c]

theorem drawsOn_insertBinding (t : Table) (c : Column) :
    DrawsOn ctx.libraries (insertDemands t c) (ctx.insertBinding t c) := by
  unfold insertBinding insertDemands
  split
  · exact ctx.drawsOn_bindDivided t c
  · exact ctx.drawsOn_bindPlain c

/-- **Columns** that are bound one after the other draw on the demands of each. -/
theorem drawsOn_bindEach {one : Column → Step Binding} {write : Column → Binding → String}
    {demands : Column → List Demand} (hone : ∀ c, DrawsOn ctx.libraries (demands c) (one c))
    (columns : List Column) :
    DrawsOn ctx.libraries (columns.flatMap demands) (bindEach one write columns) := by
  induction columns with
  | nil => exact .pure []
  | cons c rest ih => exact (hone c).bind fun b => ih.before fun texts => .pure _

theorem drawsOn_eachBound {write : Column → Binding → String} (columns : List Column) :
    DrawsOn ctx.libraries (columns.map .recipe) (ctx.eachBound write columns) := by
  rw [eachBound_eq_bindEach, List.map_eq_flatMap]
  exact ctx.drawsOn_bindEach ctx.drawsOn_bindPlain columns

theorem drawsOn_predicate (t : Table) (count : Int) :
    DrawsOn ctx.libraries ((t.predicateColumns count).map .recipe) (ctx.predicate t count) :=
  (DrawsOn.report _).after fun _ => (ctx.drawsOn_eachBound _).before fun _ => .pure _

theorem drawsOn_assignments (t : Table) :
    DrawsOn ctx.libraries (t.nonKeyColumns.map .recipe) (ctx.assignments t) :=
  (ctx.drawsOn_eachBound _).before fun _ => .pure _

/-! ## Operations -/

theorem drawsOn_opOf {demands : List Demand} {ratio : Except Failure (Option Int)}
    (hratio : FoundFrom ctx.libraries demands ratio) (form : Form) (kind : TimeoutKind)
    (statement : Statement) :
    DrawsOn ctx.libraries demands (ctx.opOf form kind statement ratio) := by
  have htext : FoundFrom ctx.libraries [] statement.text := by
    refine .of_not_isShortage fun failure h => ?_
    simp [Failure.IsShortage, Statement.category_of_text h]
  have htimeout : FoundFrom ctx.libraries [] (ctx.timeout kind) := by
    rw [timeout_eq]
    exact .ok _
  exact (DrawsOn.ofExcept htext).after fun _ => (DrawsOn.ofExcept htimeout).after fun _ =>
    (DrawsOn.ofExcept hratio).before fun _ => .pure _

theorem drawsOn_simpleOp (kind : TimeoutKind) (statement : Statement) :
    DrawsOn ctx.libraries [] (ctx.simpleOp kind statement) :=
  ctx.drawsOn_opOf (.ok none) .simple kind statement

theorem drawsOn_preparedOp (t : Table) (name : String) (kind : TimeoutKind)
    (statement : Statement) : DrawsOn ctx.libraries (t.demands [name])
      (ctx.preparedOp kind statement (t.ratioFor name)) :=
  ctx.drawsOn_opOf ((t.foundFrom_ratioFor ctx.libraries name).map some) .prepared kind statement

theorem drawsOn_createKeyspace (k : Keyspace) :
    DrawsOn ctx.libraries [] (ctx.createKeyspace k) := by
  have hbody : FoundFrom ctx.libraries [] (replicationBody k) := by
    refine .of_not_isShortage fun failure h => ?_
    rcases category_of_replicationBody h with hc | hc <;> simp [Failure.IsShortage, hc]
  exact (DrawsOn.ofExcept hbody).after fun body => ctx.drawsOn_simpleOp _ _

theorem drawsOn_createTable (block : String) (t : Table) :
    DrawsOn ctx.libraries ((Task.createTable t).demands ctx.config)
      (ctx.createTable block t) := by
  have helided : FoundFrom ctx.libraries ((Task.createTable t).demands ctx.config)
      (ctx.isElided t) := by
    rw [isElided, Task.demands]
    split
    · exact (t.foundFrom_totalRatio ctx.libraries).map _
    · exact .ok false
  refine (DrawsOn.ofExcept helided).before fun elided => ?_
  split
  · exact (DrawsOn.report _).after fun _ => .pure none
  · exact (ctx.drawsOn_simpleOp _ _).noted

/-- The columns of an insert are asked for one by one, and the last one of the partition
key for the number of partitions besides. -/
theorem mem_insertDemands_iff {t : Table} (h : t.WellKeyed) (demand : Demand) :
    demand ∈ t.columns.flatMap (insertDemands t) ++ t.demands [Statistic.writesName] ↔
      demand ∈ (Task.insert t).demands ctx.config := by
  obtain ⟨last, hlast, hkey⟩ := h.exists_isLastPartitionKey
  have hdivided : (∃ c, c ∈ t.columns ∧ demand ∈ insertDemands t c) ↔
      demand ∈ t.demands [Statistic.partitionsName] ∨
        ∃ c, c ∈ t.columns ∧ Demand.recipe c = demand := by
    simp only [insertDemands, List.mem_append, List.mem_singleton]
    constructor
    · rintro ⟨c, hc, hdemand | rfl⟩
      · split at hdemand
        · exact Or.inl hdemand
        · cases hdemand
      · exact Or.inr ⟨c, hc, rfl⟩
    · rintro (hdemand | ⟨c, hc, rfl⟩)
      · exact ⟨last, hlast, Or.inl (by rwa [if_pos hkey])⟩
      · exact ⟨c, hc, Or.inr rfl⟩
  have hboth : t.demands [Statistic.partitionsName, Statistic.writesName] =
      t.demands [Statistic.partitionsName] ++ t.demands [Statistic.writesName] :=
    t.demands_append [Statistic.partitionsName] [Statistic.writesName]
  simp only [Task.demands, hboth, List.mem_append, List.mem_flatMap, List.mem_map, hdivided]
  rw [or_comm (a := demand ∈ t.demands [Statistic.partitionsName]), or_assoc]

theorem drawsOn_insertOp {t : Table} (h : t.WellKeyed) :
    DrawsOn ctx.libraries ((Task.insert t).demands ctx.config) (ctx.insertOp t) := by
  refine DrawsOn.of_mem_iff (DrawsOn.noted ?_) (ctx.mem_insertDemands_iff h)
  rw [insertPlaceholders_eq_bindEach]
  exact (ctx.drawsOn_bindEach (ctx.drawsOn_insertBinding t) t.columns).bind fun placeholders =>
    ctx.drawsOn_preparedOp t Statistic.writesName _ _

theorem drawsOn_queryOp (kind : TimeoutKind) (count : Int) (t : Table) :
    DrawsOn ctx.libraries ((t.predicateColumns count).map .recipe ++
      t.demands [Statistic.readsName]) (ctx.queryOp kind count t) :=
  (ctx.drawsOn_predicate t count).bind fun _ => ctx.drawsOn_preparedOp t Statistic.readsName kind _

/-- The columns outside the key are asked for before the key columns. -/
theorem drawsOn_updateOp {t : Table} (h : t.Valid) :
    DrawsOn ctx.libraries ((Task.update t).demands ctx.config) (ctx.updateOp t) := by
  rw [updateOp, Task.demands]
  split
  · exact (DrawsOn.report _).after fun _ => .pure none
  · have hop := (ctx.drawsOn_assignments t).bind fun assignments =>
      (ctx.drawsOn_predicate t 0).bind fun predicate =>
        ctx.drawsOn_preparedOp t Statistic.writesName .update
          (.update t.keyspace t.name assignments predicate)
    refine hop.of_mem_iff fun demand => ?_
    have hplaces : (t.nonKeyColumns ++ t.keyColumns).Perm t.columns :=
      List.perm_append_comm.trans h.divided.places
    rw [h.wellKeyed.predicateColumns_zero, ← List.append_assoc, ← List.map_append,
      List.mem_append, List.mem_append, (hplaces.map Demand.recipe).mem_iff]

end Context

/-- **A task draws on its demands.** -/
theorem Task.drawsOn_make (task : Task) (ctx : Context) (block : String)
    (hvalid : ∀ t, task.element = .table t → t.Valid) :
    Step.DrawsOn ctx.libraries (task.demands ctx.config) (task.make ctx block) := by
  cases task with
  | createKeyspace k => exact ctx.drawsOn_createKeyspace k
  | createTable t => exact ctx.drawsOn_createTable block t
  | insert t => exact ctx.drawsOn_insertOp (hvalid t rfl).wellKeyed
  | select t =>
      have h := ctx.drawsOn_queryOp .select 0 t
      rwa [(hvalid t rfl).wellKeyed.predicateColumns_zero] at h
  | scan t =>
      have h := ctx.drawsOn_queryOp .scan t.partitionKeys.length t
      rwa [(hvalid t rfl).wellKeyed.predicateColumns_partition] at h
  | update t => exact ctx.drawsOn_updateOp (hvalid t rfl)
  | createType | dropType | dropTable | dropKeyspace | truncate =>
      exact ctx.drawsOn_simpleOp _ _

/-! ## Plans -/

namespace Context

open Step

variable (ctx : Context) {block : String} {schema : Schema}

theorem drawsOn_fulfil {component : Component} {tasks : List Task}
    (hvalid : ∀ task, task ∈ tasks → ∀ t, task.element = .table t → t.Valid)
    (before : Entries Op) : DrawsOn ctx.libraries (tasks.flatMap (·.demands ctx.config))
      (fulfil component block before (tasks.map (·.request ctx block))) := by
  induction tasks generalizing before with
  | nil => exact .pure before
  | cons task rest ih =>
      have hmake := task.drawsOn_make ctx block (hvalid task (List.mem_cons_self ..))
      have ih := ih fun other hm => hvalid other (List.mem_cons_of_mem task hm)
      rw [List.map_cons, fulfil_cons, List.flatMap_cons]
      refine DrawsOn.bind (hmake.before fun found => ?_) ih
      cases found with
      | none => exact .pure before
      | some op => exact (DrawsOn.nameFor _ _).after fun name => .pure _

theorem drawsOn_generate (hs : schema.Sound) (component : Component) :
    DrawsOn ctx.libraries ((component.tasks schema).flatMap (·.demands ctx.config))
      (ctx.generate schema block component) := by
  rw [generate, requests_eq]
  refine ctx.drawsOn_fulfil (fun task hm t ht => ?_) []
  exact hs.tables t (Schema.Sound.mem_tables_of_mem_tasks hm ht)

theorem drawsOn_collect (hs : schema.Sound) (components : List Component)
    (before : Entries Op) :
    DrawsOn ctx.libraries (components.flatMap fun component =>
      (component.tasks schema).flatMap (·.demands ctx.config))
      (ctx.collect schema block before components) := by
  induction components generalizing before with
  | nil => exact .pure before
  | cons component rest ih =>
      refine (ctx.drawsOn_generate hs component).bind fun fragment => DrawsOn.after ?_ ih
      refine .ofExcept (.of_not_isShortage fun failure h => ?_)
      simp [Failure.IsShortage, category_of_addOps h]

theorem drawsOn_planAll (hs : schema.Sound) (plan : Entries (List Component)) :
    DrawsOn ctx.libraries (plan.flatMap fun planned => planned.2.flatMap fun component =>
      (component.tasks schema).flatMap (·.demands ctx.config)) (ctx.planAll schema plan) := by
  induction plan with
  | nil => exact .pure []
  | cons planned rest ih =>
      have hblock : ∀ ops, DrawsOn ctx.libraries [] (finish planned.1 ops planned.2.length) :=
        fun ops => (DrawsOn.report _).after fun _ => .pure _
      exact ((ctx.drawsOn_collect hs planned.2 []).before hblock).bind fun block =>
        ih.before fun blocks => .pure _

/-- **A compile draws on the demands of its plan.** -/
theorem drawsOn_compile (hs : schema.Sound) :
    DrawsOn ctx.libraries (ctx.config.demands schema) (ctx.compile schema) := by
  have hprime : DrawsOn ctx.libraries [] (Step.prime schema) := fun _ => .ok ()
  exact hprime.after fun _ => (ctx.drawsOn_planAll hs _).before fun blocks _ => .ok _

end Context

theorem Workload.foundFrom_generate {s : Schema} (hs : s.Sound) (c : Config) :
    FoundFrom c.libraries (c.demands s) (Workload.generate s c).1 := by
  rcases Workload.generate_cases (s := s) (c := c) rfl with
    ⟨failure, hcreate, hfound⟩ | ⟨ctx, start, last, hcreate, hrun⟩
  · rw [hfound]
    -- Without a context the compile ends before it comes to any demand.
    refine ⟨fun w h => (by cases h), fun other h hs => ?_⟩
    cases h
    rcases Context.category_of_create hcreate with hc | hc | hc <;>
      simp [Failure.IsShortage, hc] at hs
  · obtain ⟨hconfig, hlibraries, _⟩ := Context.create_eq_ok hcreate
    have hfound := ctx.drawsOn_compile hs start
    rw [hrun, hconfig, hlibraries] at hfound
    exact hfound

/-- **Shortages.** A compile reports the shortage of something that its plan demands, and
nothing else that may be short, and it returns no workload unless all demands are met. -/
theorem Workload.compile_shortages {s : Schema} {c : Config} (hs : s.Valid)
    (hc : c.transformers = []) :
    (∀ failure, (Workload.compile s c).1 = .error failure → failure.IsShortage →
      ∃ demand, demand ∈ c.demands s ∧ demand.Lacks c.libraries failure) ∧
    ∀ demand failure, demand ∈ c.demands s → demand.Lacks c.libraries failure →
      ∀ w, (Workload.compile s c).1 ≠ .ok w := by
  have hall : Catalog.builtIn.getAll c.transformers = .ok [] := by rw [hc]; rfl
  rw [Workload.compile_eq_of_applyAll hall (s := s) rfl]
  have hfound := Workload.foundFrom_generate hs.toSound c
  refine ⟨hfound.short, fun demand failure hm hl w hw => ?_⟩
  exact hfound.met w hw demand hm failure hl

/-! ## An example -/

/-- A table with a type that has no recipe and without a weight of writes. -/
def Table.unweighed : Table where
  keyspace := "shop"
  name := "orders"
  columns := [
    ⟨"id", "int", .partitionKey, some "shop", some "orders"⟩,
    ⟨"place", "shop.point", .regular, some "shop", some "orders"⟩]
  partitionKeys := ["id"]
  clusteringColumns := []
  clusteringOrders := []
  stats := some [("weighted_reads", .int 1)]
  compactStorage := false

def Schema.unweighed : Schema where
  keyspaces := []
  types := []
  tables := [.unweighed]

/-- The table can be read, since reads ask neither for its type nor for the weight of
writes, but not written. -/
theorem Workload.compile_shortages_unweighed :
    Schema.unweighed.Valid ∧ Config.readsAndWrites.transformers = [] ∧
      (∀ w, (Workload.compile .unweighed .readsAndWrites).1 ≠ .ok w) ∧
      ∃ w, (Workload.compile .unweighed .reads).1 = .ok w := by
  have hs : Schema.unweighed.Valid := by decide +kernel
  have hm : Demand.statistic .unweighed Statistic.writesName ∈
      Config.readsAndWrites.demands .unweighed := by
    simp [Config.demands, Config.readsAndWrites, Component.tasks, Schema.unweighed, Task.demands,
      Table.demands, Table.hasStats, Table.unweighed]
  have hl : (Demand.statistic .unweighed Statistic.writesName).Lacks
      Config.readsAndWrites.libraries _ := .missing rfl
  obtain ⟨-, hall⟩ := Workload.compile_shortages (c := .readsAndWrites) hs rfl
  have hfound : (Exporter.mk .unweighed .reads).workload.1.toOption.any (fun _ => true) = true := by
    decide +kernel
  obtain ⟨w, hw, _⟩ := Exporter.exists_workload hfound
  have hread : (Workload.compile .unweighed .reads).1 = (Workload.generate .unweighed .reads).1 :=
    Workload.compile_eq_of_applyAll rfl rfl
  exact ⟨hs, rfl, hall _ _ hm hl, w, hread.trans hw⟩

end CqlWorkload
