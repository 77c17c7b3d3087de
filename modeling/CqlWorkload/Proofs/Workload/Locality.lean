import CqlWorkload.Proofs.Workload.Placeholders

/-!
# Operations of two workloads

An operation depends on its element, on the name of its block and on a few
settings only.  Two compiles whose configurations agree in these settings yield
the same operation for the same element in a block of the same name, whatever
else the schemas and the plans hold.

**Histories.** The names of bindings do depend on all that was compiled before,
because needs with one recipe share a binding.  What two compiles agree in is the
text of a statement after every placeholder has given way to its recipe
(`Task.Resolves`).
-/

namespace CqlWorkload

/-! ## Statements with holes -/

namespace Task

/-- The clauses of a predicate over some columns, from what is shown for each of them. -/
def clausesText (shown : Need → String) (columns : List Column) : String :=
  Text.joinWith Statement.predicateJoiner
    (columns.map fun c => c.name ++ "=" ++ shown (.plain c))

/-- The assignments to some columns, from what is shown for each of them. -/
def settingsText (shown : Need → String) (columns : List Column) : String :=
  Text.joinWith ", " (columns.map fun c =>
    if c.isCounter then c.name ++ "=" ++ c.name ++ "+" ++ shown (.plain c)
    else c.name ++ "=" ++ shown (.plain c))

/-- The statement of a task with any text shown for a need. -/
def filled (multiplier : Double) (shown : Need → String) : Task → Statement
  | .insert t =>
    .insert t.keyspace t.name (t.columns.map (·.name))
      (t.columns.map fun c => shown (t.insertNeed multiplier c))
  | .select t =>
    .select t.keyspace t.name (clausesText shown t.keyColumns) Statement.defaultLimit
  | .scan t =>
    .select t.keyspace t.name (clausesText shown t.partitionColumns) Statement.defaultLimit
  | .update t =>
    .update t.keyspace t.name (settingsText shown t.nonKeyColumns)
      (clausesText shown t.keyColumns)
  | task => task.statement multiplier fun _ => ⟨"", ""⟩

/-- A statement shows the placeholders of its needs. -/
theorem statement_eq_filled (multiplier : Double) (bound : Need → Binding) (task : Task) :
    task.statement multiplier bound =
      task.filled multiplier fun need => (bound need).placeholder := by
  cases task <;> rfl

theorem clausesText_congr {first second : Need → String} {columns : List Column}
    (h : ∀ need, need ∈ columns.map .plain → first need = second need) :
    clausesText first columns = clausesText second columns := by
  rw [clausesText, clausesText,
    List.map_congr_left fun c hc => by rw [h _ (List.mem_map.mpr ⟨c, hc, rfl⟩)]]

theorem settingsText_congr {first second : Need → String} {columns : List Column}
    (h : ∀ need, need ∈ columns.map .plain → first need = second need) :
    settingsText first columns = settingsText second columns := by
  rw [settingsText, settingsText,
    List.map_congr_left fun c hc => by rw [h _ (List.mem_map.mpr ⟨c, hc, rfl⟩)]]

/-- A statement depends on what is shown for its needs only. -/
theorem filled_congr {multiplier : Double} {first second : Need → String} (task : Task)
    (h : ∀ need, need ∈ task.needs multiplier → first need = second need) :
    task.filled multiplier first = task.filled multiplier second := by
  cases task with
  | insert t =>
      have hp : (t.columns.map fun c => first (t.insertNeed multiplier c)) =
          t.columns.map fun c => second (t.insertNeed multiplier c) :=
        List.map_congr_left fun c hc => h _ (List.mem_map.mpr ⟨c, hc, rfl⟩)
      rw [filled, filled, hp]
  | select t | scan t => rw [filled, filled, clausesText_congr h]
  | update t =>
      rw [needs, List.map_append] at h
      rw [filled, filled, settingsText_congr fun need hn => h need (List.mem_append_left _ hn),
        clausesText_congr fun need hn => h need (List.mem_append_right _ hn)]
  | _ => rfl

/-- A text is that of a task's statement, and another one has in the place of every
placeholder the recipe that a table of bindings gives for it. -/
def Resolves (multiplier : Double) (bindings : Entries String) (task : Task)
    (text resolved : String) : Prop :=
  ∃ bound : Need → Binding,
    (∀ need, need ∈ task.needs multiplier →
      bindings.get? (bound need).name = some (bound need).recipe) ∧
    text = (task.filled multiplier fun need => (bound need).placeholder).render ∧
    resolved = (task.filled multiplier fun need => (bound need).recipe).render

/-- The text of a statement over the recipes that some libraries have for its needs. -/
def resolvedText (multiplier : Double) (libraries : List Library) (task : Task) : String :=
  (task.filled multiplier fun need => (need.recipe? libraries).getD "").render

end Task

/-! ## Operations of tasks -/

namespace Workload

/-- The operation of a task in a block: the one in the place that the task has among the
tasks that are planned for the block. -/
def Performs (w : Workload) (s : Schema) (c : Config) (block : String) (task : Task)
    (b : Block) (entry : String × Op) : Prop :=
  ∃ components, ((block, components), (block, b)) ∈ c.blockplan.zip w.blocks ∧
    (task, entry) ∈ (c.tasks s components).zip b.ops

variable {w : Workload} {s : Schema} {c : Config} {block : String} {task : Task} {b : Block}
  {entry : String × Op} {related : Block → String → Task → String × Op → Prop}

theorem CarriesOut.of_performs (h : w.CarriesOut s c related)
    (hp : w.Performs s c block task b entry) : related b block task entry := by
  obtain ⟨components, hblock, hentry⟩ := hp
  exact List.forall₂_zip (List.forall₂_zip h hblock).2 hentry

theorem Performs.mem_tasks (hp : w.Performs s c block task b entry) :
    ∃ components, (block, components) ∈ c.blockplan ∧ task ∈ c.tasks s components := by
  obtain ⟨components, hblock, hentry⟩ := hp
  exact ⟨components, (List.of_mem_zip hblock).1, (List.of_mem_zip hentry).1⟩

theorem Performs.applies (hp : w.Performs s c block task b entry) :
    task.applies c = true := by
  obtain ⟨components, _, hm⟩ := hp.mem_tasks
  obtain ⟨component, _, hm⟩ := List.mem_flatMap.mp hm
  exact (List.mem_filter.mp hm).2

end Workload

theorem forall₂_exists_zip {α β : Type} {R : α → β → Prop} {a : α} :
    ∀ {first : List α} {second : List β}, List.Forall₂ R first second → a ∈ first →
      ∃ b, (a, b) ∈ first.zip second
  | _, _, .nil, ha => by cases ha
  | _ :: _, b :: _, .cons _ hrs, ha => by
      rcases List.mem_cons.mp ha with rfl | ha
      · exact ⟨b, List.mem_cons_self ..⟩
      · obtain ⟨other, hm⟩ := forall₂_exists_zip hrs ha
        exact ⟨other, List.mem_cons_of_mem _ hm⟩

/-- Every planned task has an operation. -/
theorem Workload.CarriesOut.exists_performs {w : Workload} {s : Schema} {c : Config}
    {related : Block → String → Task → String × Op → Prop} (h : w.CarriesOut s c related)
    {block : String} {components : List Component} {task : Task}
    (hb : (block, components) ∈ c.blockplan) (ht : task ∈ c.tasks s components) :
    ∃ b entry, w.Performs s c block task b entry := by
  obtain ⟨⟨name, b⟩, hblock⟩ := forall₂_exists_zip h hb
  obtain ⟨hname, hops⟩ := List.forall₂_zip h hblock
  obtain rfl : name = block := hname
  obtain ⟨entry, hentry⟩ := forall₂_exists_zip hops ht
  exact ⟨b, entry, components, hblock, hentry⟩

/-- The tasks of a component are those about the elements of the schema. -/
theorem Task.mem_tasks {s : Schema} {task : Task} (h : task.element ∈ Registry.elements s) :
    task ∈ task.component.tasks s := by
  cases task <;>
    simpa [Registry.elements, element, component, Component.tasks, Entries.mem_byFirst] using h

/-! ## Configurations that agree -/

/-- Configurations that agree in the settings that an operation depends on. -/
structure Config.Alike (a b : Config) : Prop where
  namingTemplate : a.namingTemplate = b.namingTemplate
  timeouts : a.timeouts = b.timeouts
  partitionMultiplier : a.partitionMultiplier = b.partitionMultiplier
  typeBindings : a.typeBindings = b.typeBindings
  elideUnusedTables : a.elideUnusedTables = b.elideUnusedTables

namespace Config.Alike

variable {a b : Config}

theorem libraries (h : a.Alike b) : a.libraries = b.libraries :=
  Config.libraries_congr h.namingTemplate h.typeBindings

theorem nameOf (h : a.Alike b) (e : Element) (hints : List (String × String)) :
    a.nameOf e hints = b.nameOf e hints := by
  rw [Config.nameOf, Config.nameOf, h.namingTemplate]

theorem applies (h : a.Alike b) (task : Task) : task.applies a = task.applies b := by
  cases task <;> simp [Task.applies, h.elideUnusedTables]

end Config.Alike

/-! ## One compile -/

/-- What an operation is, by its element, the name of its block and the settings. -/
structure Task.Realized (c : Config) (bindings : Entries String) (b : Block) (block : String)
    (task : Task) (entry : String × Op) : Prop where
  name : entry.1 = c.nameOf task.element (task.hints block)
  form : entry.2.form = task.form
  ratio : task.ratio = .ok entry.2.ratio
  timeout : ∃ x, b.timeoutOf entry.2 = some x ∧ x.Agrees (c.timeouts.get task.kind)
  statement : task.Resolves c.partitionMultiplier bindings entry.2.statement
    (task.resolvedText c.partitionMultiplier c.libraries)

namespace Workload.Compiled

variable {s : Schema} {c : Config} {ctx : Context} {last : Session} {w : Workload}
  {block : String} {task : Task}

/-- **The history of a compile does not matter** for what its operations are. -/
theorem realized (h : w.Compiled s c ctx last) (hs : s.Sound) {b : Block} {entry : String × Op}
    (hp : w.Performs s c block task b entry) :
    task.Realized c w.bindings b block entry := by
  obtain ⟨components, hblock, htask⟩ := hp.mem_tasks
  have hentered := h.carriesOut.of_performs hp
  have hneeds : ∀ need, need ∈ task.needs c.partitionMultiplier → need ∈ c.needs s :=
    fun need hn => List.mem_flatMap.mpr ⟨_, hblock, List.mem_flatMap.mpr ⟨task, htask, hn⟩⟩
  refine ⟨by rw [← h.named]; exact hentered.name, hentered.form, hentered.ratio,
    h.timeouts.of_performs hp, Binding.boundIn c.libraries last.bindings,
    fun need hn => (h.get?_boundIn hs (hneeds need hn)).2, ?_, ?_⟩
  · rw [hentered.statement, h.config, h.libraries, Task.statement_eq_filled]
  · have hrecipes : ∀ need, need ∈ task.needs c.partitionMultiplier →
        (need.recipe? c.libraries).getD "" =
          (Binding.boundIn c.libraries last.bindings need).recipe := by
      intro need hn
      rw [(h.get?_boundIn hs (hneeds need hn)).1, Option.getD_some]
    rw [Task.resolvedText, task.filled_congr hrecipes]

/-- A planned component has an operation for an element exactly when it applies to it. -/
theorem exists_performs_iff (h : w.Compiled s c ctx last) {components : List Component}
    (hb : (block, components) ∈ c.blockplan) (hc : task.component ∈ components)
    (he : task.element ∈ Registry.elements s) :
    (∃ b entry, w.Performs s c block task b entry) ↔ task.applies c = true := by
  constructor
  · rintro ⟨b, entry, hp⟩
    exact hp.applies
  · intro ha
    have ht : task ∈ c.tasks s components :=
      List.mem_flatMap.mpr ⟨_, hc, List.mem_filter.mpr ⟨Task.mem_tasks he, ha⟩⟩
    exact h.carriesOut.exists_performs hb ht

end Workload.Compiled

/-! ## Two compiles -/

/-- Operations of two workloads for one task that do the same: name, form and ratio are
the same, the timeouts in effect agree, and so do the statements with the recipes of
their own workloads in the places of the placeholders. -/
structure Task.SameWork (multiplier : Double) (task : Task) (first second : Workload)
    (b b' : Block) (entry entry' : String × Op) : Prop where
  name : entry.1 = entry'.1
  form : entry.2.form = entry'.2.form
  ratio : entry.2.ratio = entry'.2.ratio
  timeout : ∃ x y, b.timeoutOf entry.2 = some x ∧ b'.timeoutOf entry'.2 = some y ∧ x.Agrees y
  statement : ∃ resolved, task.Resolves multiplier first.bindings entry.2.statement resolved ∧
    task.Resolves multiplier second.bindings entry'.2.statement resolved

theorem Task.Realized.sameWork {c c' : Config} {w w' : Workload} {b b' : Block}
    {block : String} {task : Task} {entry entry' : String × Op} (hc : c.Alike c')
    (h : task.Realized c w.bindings b block entry)
    (h' : task.Realized c' w'.bindings b' block entry') :
    task.SameWork c.partitionMultiplier w w' b b' entry entry' where
  name := by rw [h.name, h'.name, hc.nameOf]
  form := h.form.trans h'.form.symm
  ratio := Except.ok.inj (h.ratio.symm.trans h'.ratio)
  timeout := by
    obtain ⟨x, hx, hagrees⟩ := h.timeout
    obtain ⟨y, hy, hagrees'⟩ := h'.timeout
    rw [← hc.timeouts] at hagrees'
    exact ⟨x, y, hx, hy, hagrees.trans hagrees'.symm⟩
  statement := by
    have hs' := h'.statement
    rw [← hc.partitionMultiplier, ← hc.libraries] at hs'
    exact ⟨_, h.statement, hs'⟩

/-- **Locality.** Two compiles whose configurations agree have an operation for the same
element in a block of the same name both or neither, and the two do the same. -/
theorem Exporter.operations_local {s s' : Schema} {c c' : Config}
    {transformers transformers' : List Transformer} {e e' : Exporter} {w w' : Workload}
    (hs : s.Valid) (hs' : s'.Valid) (hc : c.Alike c')
    (he : (Exporter.ofTransformers s c transformers).1 = .ok e)
    (he' : (Exporter.ofTransformers s' c' transformers').1 = .ok e')
    (hw : e.workload.1 = .ok w) (hw' : e'.workload.1 = .ok w')
    {block : String} {components components' : List Component} {task : Task}
    (hb : (block, components) ∈ c.blockplan) (hb' : (block, components') ∈ c'.blockplan)
    (ht : task.component ∈ components) (ht' : task.component ∈ components')
    (hm : task.element ∈ Registry.elements e.schema)
    (hm' : task.element ∈ Registry.elements e'.schema) :
    ((∃ b entry, w.Performs e.schema c block task b entry) ↔
      ∃ b entry, w'.Performs e'.schema c' block task b entry) ∧
    ∀ b entry b' entry', w.Performs e.schema c block task b entry →
      w'.Performs e'.schema c' block task b' entry' →
        task.SameWork c.partitionMultiplier w w' b b' entry entry' := by
  obtain ⟨hsound, rfl⟩ := Exporter.sound_ofTransformers hs.toSound he
  obtain ⟨hsound', rfl⟩ := Exporter.sound_ofTransformers hs'.toSound he'
  obtain ⟨ctx, last, h⟩ := Workload.generate_eq_ok hsound hw
  obtain ⟨ctx', last', h'⟩ := Workload.generate_eq_ok hsound' hw'
  refine ⟨?_, fun b entry b' entry' hp hp' => ?_⟩
  · rw [h.exists_performs_iff hb ht hm, h'.exists_performs_iff hb' ht' hm', hc.applies]
  · exact (h.realized hsound hp).sameWork hc (h'.realized hsound' hp')

/-! ## An example -/

/-- The table of the schema of orders. -/
def Table.orders : Table := Schema.orders.tables.head (List.cons_ne_nil _ _)

/-- A schema with another table in front of that of orders. -/
def Schema.usersAndOrders : Schema where
  keyspaces := []
  types := []
  tables := [{
    keyspace := "shop"
    name := "users"
    columns := [⟨"id", "int", .partitionKey, some "shop", some "users"⟩]
    partitionKeys := ["id"]
    clusteringColumns := []
    clusteringOrders := []
    stats := none
    compactStorage := false }, .orders]

/-- A configuration with another block before the one of reads and writes. -/
def Config.rampupFirst : Config :=
  { Config.readsAndWrites with
    blockplan := [("rampup", [.insert]), ("main", [.scan, .insert])] }

theorem Exporter.exists_workload_usersAndOrders :
    ∃ w, (Exporter.mk .usersAndOrders .rampupFirst).workload.1 = .ok w := by
  have hfound : (Exporter.mk .usersAndOrders .rampupFirst).workload.1.toOption.any
      (fun _ => true) = true := by decide +kernel
  obtain ⟨w, hw, _⟩ := exists_workload hfound
  exact ⟨w, hw⟩

/-- The insert for orders is in both workloads, where it shows other placeholders. -/
theorem Exporter.operations_local_orders :
    Schema.orders.Valid ∧ Schema.usersAndOrders.Valid ∧
      Config.readsAndWrites.Alike .rampupFirst ∧
      ∃ w w' b entry b' entry', (Exporter.mk .orders .readsAndWrites).workload.1 = .ok w ∧
        (Exporter.mk .usersAndOrders .rampupFirst).workload.1 = .ok w' ∧
        (Task.insert .orders).SameWork (.ofInt 1) w w' b b' entry entry' := by
  have hs' : Schema.usersAndOrders.Valid := by decide +kernel
  have hc : Config.readsAndWrites.Alike .rampupFirst := ⟨rfl, rfl, rfl, rfl, rfl⟩
  obtain ⟨w, hw⟩ := Exporter.exists_workload_orders
  obtain ⟨w', hw'⟩ := Exporter.exists_workload_usersAndOrders
  have hb : ("main", [Component.insert, .select, .update]) ∈ Config.readsAndWrites.blockplan :=
    List.mem_singleton.mpr rfl
  have hb' : ("main", [Component.scan, .insert]) ∈ Config.rampupFirst.blockplan :=
    List.mem_cons_of_mem _ (List.mem_singleton.mpr rfl)
  have hm : (Task.insert .orders).element ∈ Registry.elements .orders :=
    Schema.Sound.mem_elements_of_table (List.head_mem _)
  have hm' : (Task.insert .orders).element ∈ Registry.elements .usersAndOrders :=
    Schema.Sound.mem_elements_of_table (List.mem_cons_of_mem _ (List.mem_singleton.mpr rfl))
  obtain ⟨hiff, hsame⟩ := @Exporter.operations_local .orders .usersAndOrders .readsAndWrites
    .rampupFirst [] [] ⟨.orders, .readsAndWrites⟩ ⟨.usersAndOrders, .rampupFirst⟩ w w'
    Schema.valid_orders hs' hc (Exporter.ofTransformers_nil ..) (Exporter.ofTransformers_nil ..) hw hw'
    "main" [.insert, .select, .update] [.scan, .insert] (.insert .orders)
    hb hb' (by decide) (by decide) hm hm'
  obtain ⟨ctx, last, h⟩ := Workload.generate_eq_ok Schema.valid_orders.toSound hw
  obtain ⟨b, entry, hp⟩ := (h.exists_performs_iff hb (List.mem_cons_self ..) hm).mpr rfl
  obtain ⟨b', entry', hp'⟩ := hiff.mp ⟨b, entry, hp⟩
  exact ⟨Schema.valid_orders, hs', hc, w, w', b, entry, b', entry', hw, hw', hsame b entry b' entry' hp hp'⟩

end CqlWorkload
