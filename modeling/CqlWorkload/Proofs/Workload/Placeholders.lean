import CqlWorkload.Proofs.Transform.Preservation
import CqlWorkload.Proofs.Workload.Block

/-!
# Placeholders and their bindings

Every placeholder of a statement is the name of a binding, and the recipe below
that name is the one of the column's type, behind the stage of its need.  The
bindings of a workload are the ones that its statements show and no others, in
the order of their first use, and no recipe is there twice.

**Sharing.** A binding is shared by all needs with its recipe, so a placeholder is
usually named after another column.  What keeps the table of bindings right is
that a name settles its recipe (`recipe_of_name`).
-/

namespace CqlWorkload

/-! ## Columns of needs -/

theorem Task.hasColumn_of_mem_needs {s : Schema} {component : Component} {task : Task}
    {multiplier : Double} {need : Need} (ht : task ∈ component.tasks s)
    (hn : need ∈ task.needs multiplier) : s.HasColumn need.column := by
  have htable : ∀ {t : Table}, task.element = .table t → t ∈ s.tables :=
    Schema.Sound.mem_tables_of_mem_tasks ht
  cases task with
  | insert t =>
      obtain ⟨c, hc, rfl⟩ := List.mem_map.mp hn
      exact ⟨t, htable rfl, hc⟩
  | select t =>
      obtain ⟨c, hc, rfl⟩ := List.mem_map.mp hn
      exact ⟨t, htable rfl, Table.mem_columns_of_mem_keyColumns hc⟩
  | scan t =>
      obtain ⟨c, hc, rfl⟩ := List.mem_map.mp hn
      exact ⟨t, htable rfl, Table.mem_columns_of_mem_partitionColumns hc⟩
  | update t =>
      obtain ⟨c, hc, rfl⟩ := List.mem_map.mp hn
      rcases List.mem_append.mp hc with hc | hc
      · exact ⟨t, htable rfl, Table.mem_columns_of_mem_nonKeyColumns hc⟩
      · exact ⟨t, htable rfl, Table.mem_columns_of_mem_keyColumns hc⟩
  | _ => cases hn

theorem Config.mem_tasks {c : Config} {s : Schema} {components : List Component} {task : Task}
    (h : task ∈ c.tasks s components) : ∃ component : Component, task ∈ component.tasks s := by
  obtain ⟨component, _, hm⟩ := List.mem_flatMap.mp h
  exact ⟨component, (List.mem_filter.mp hm).1⟩

theorem Config.hasColumn_of_mem_needs {c : Config} {s : Schema} {need : Need}
    (h : need ∈ c.needs s) : s.HasColumn need.column := by
  obtain ⟨planned, _, hm⟩ := List.mem_flatMap.mp h
  obtain ⟨task, ht, hn⟩ := List.mem_flatMap.mp hm
  obtain ⟨component, ht⟩ := Config.mem_tasks ht
  exact Task.hasColumn_of_mem_needs ht hn

/-! ## Names and recipes -/

namespace Need

theorem stage_eq_of_hints_eq {a b : Need} (h : a.hints = b.hints) : a.stage = b.stage := by
  obtain ⟨column, modulus⟩ := a
  obtain ⟨other, modulus'⟩ := b
  cases modulus <;> cases modulus' <;> simp_all [hints, stage]

/-- In a sound schema the owner of a need settles its recipe. -/
theorem recipe?_eq_of_owner_eq {s : Schema} (h : s.Sound) {a b : Need}
    (ha : s.HasColumn a.column) (hb : s.HasColumn b.column) (ho : a.owner = b.owner)
    (libraries : List Library) : a.recipe? libraries = b.recipe? libraries := by
  obtain ⟨-, hk, ht, hn, hh⟩ := Owner.mk.inj ho
  rw [recipe?, recipe?, h.column_eq ha hb hk ht hn, stage_eq_of_hints_eq hh]

end Need

namespace Workload.Compiled

variable {s : Schema} {c : Config} {ctx : Context} {last : Session} {w : Workload}

/-- **A name settles its recipe.** -/
theorem recipe_of_name (h : w.Compiled s c ctx last) (hs : s.Sound) {a b : Binding}
    (ha : a ∈ last.bindings) (hb : b ∈ last.bindings) (hn : a.name = b.name) :
    a.recipe = b.recipe := by
  obtain ⟨need, hneed, hfirst⟩ := h.origins a ha
  obtain ⟨other, hother, hsecond⟩ := h.origins b hb
  have howner : need.owner = other.owner := by
    have hi := hfirst.issued
    rw [hn, hsecond.issued] at hi
    exact (Option.some.inj hi).symm
  have hr := Need.recipe?_eq_of_owner_eq hs
    (Config.hasColumn_of_mem_needs (List.mem_of_find?_eq_some hneed))
    (Config.hasColumn_of_mem_needs (List.mem_of_find?_eq_some hother)) howner c.libraries
  rw [hfirst.recipe, hsecond.recipe] at hr
  exact Option.some.inj hr

theorem nodup_recipes (h : w.Compiled s c ctx last) :
    (last.bindings.map (·.recipe)).Nodup := by
  rw [h.accumulated, Binding.recipes_accumulate]
  exact Entries.nodup_eraseDups _

theorem binding_of_recipe (h : w.Compiled s c ctx last) {a b : Binding}
    (ha : a ∈ last.bindings) (hb : b ∈ last.bindings) (hr : a.recipe = b.recipe) : a = b :=
  List.inj_on_of_nodup_map h.nodup_recipes ha hb hr

theorem nodup_names (h : w.Compiled s c ctx last) (hs : s.Sound) :
    (last.bindings.map (·.name)).Nodup :=
  h.nodup_recipes.of_map.map_on fun _ ha _ hb hn =>
    h.binding_of_recipe ha hb (h.recipe_of_name hs ha hb hn)

/-- The table of bindings has all of them, in order. -/
theorem bindings_eq (h : w.Compiled s c ctx last) (hs : s.Sound) :
    w.bindings = last.bindings.map fun b => (b.name, b.recipe) := by
  rw [h.bindings, Binding.table, Entries.putAll_eq_append, List.nil_append]
  rw [List.nil_append, Entries.keys, List.map_map]
  exact h.nodup_names hs

/-- The table has the recipe of a binding below its name. -/
theorem get?_of_mem (h : w.Compiled s c ctx last) (hs : s.Sound) {b : Binding}
    (hb : b ∈ last.bindings) : w.bindings.get? b.name = some b.recipe := by
  rw [h.bindings_eq hs]
  refine Entries.get?_of_mem ?_ (List.mem_map.mpr ⟨b, hb, rfl⟩)
  rw [Entries.keys, List.map_map]
  exact h.nodup_names hs

/-- A bound need shows a name of the table, and the recipe is below that name. -/
theorem get?_boundIn (h : w.Compiled s c ctx last) (hs : s.Sound) {need : Need}
    (hn : need ∈ c.needs s) :
    need.recipe? c.libraries = some (Binding.boundIn c.libraries last.bindings need).recipe ∧
      w.bindings.get? (Binding.boundIn c.libraries last.bindings need).name =
        some (Binding.boundIn c.libraries last.bindings need).recipe := by
  obtain ⟨hm, hr⟩ := Binding.boundIn_spec (h.bound need hn)
  exact ⟨hr, h.get?_of_mem hs hm⟩

end Workload.Compiled

/-! ## Placeholders -/

/-- A table of orders with statistics, in a schema of its own. -/
def Schema.orders : Schema where
  keyspaces := []
  types := []
  tables := [{
    keyspace := "shop"
    name := "orders"
    columns := [
      ⟨"id", "int", .partitionKey, some "shop", some "orders"⟩,
      ⟨"total", "int", .regular, some "shop", some "orders"⟩]
    partitionKeys := ["id"]
    clusteringColumns := []
    clusteringOrders := []
    stats := some [("weighted_reads", .int 1), ("weighted_writes", .int 2),
      ("Number of partitions (estimate)", .int 1234)]
    compactStorage := false }]

theorem Schema.valid_orders : Schema.orders.Valid := by decide +kernel

/-- A configuration with one block of reads and writes. -/
def Config.readsAndWrites : Config where
  namingTemplate := Template.standard
  partitionMultiplier := .ofInt 1
  timeouts := .standard
  elideUnusedTables := false
  blockplan := [("main", [.insert, .select, .update])]
  transformers := []
  typeBindings := []

theorem Config.valid_readsAndWrites : Config.readsAndWrites.Valid := by decide +kernel

/-- A workload that a check of it finds. -/
theorem Exporter.exists_workload {e : Exporter} {check : Workload → Bool}
    (h : e.workload.1.toOption.any check = true) :
    ∃ w, e.workload.1 = .ok w ∧ check w = true := by
  cases hw : e.workload.1 with
  | error failure =>
      rw [hw] at h
      cases h
  | ok w =>
      rw [hw] at h
      exact ⟨w, rfl, h⟩

theorem Exporter.exists_workload_orders :
    ∃ w, (Exporter.mk .orders .readsAndWrites).workload.1 = .ok w := by
  have hfound : (Exporter.mk .orders .readsAndWrites).workload.1.toOption.any (fun _ => true) =
      true := by decide +kernel
  obtain ⟨w, hw, _⟩ := exists_workload hfound
  exact ⟨w, hw⟩

end CqlWorkload
