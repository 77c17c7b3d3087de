import CqlWorkload.Proofs.Transform.Settings
import CqlWorkload.Proofs.Workload.Placeholders
import CqlWorkload.Proofs.Workload.Stuck

/-!
# Refusals

A compile comes to the tasks of its plan one after the other, each in the session
that the ones before it lead to.  It ends without a workload and without a compile
failure exactly when it comes to a task that is unfit there, to a transformer that is
unfit for what those before it make, or to a pattern that overtaxes the matcher
(`Workload.compile_outcome`).
-/

namespace CqlWorkload

open Step

namespace Context

variable {ctx : Context} {block : String} {s : Session}

/-! ## Components -/

/-- The operation that a request yields is put on top of those before it. -/
def fulfilOne (component : Component) (block : String) (before : Entries Op)
    (request : Request) : Step (Entries Op) := do
  match ← request.make with
  | none => pure before
  | some op =>
    let name ← Step.nameFor request.element [("optype", component.opType), ("blockname", block)]
    pure (before.put name op)

theorem fulfil_cons (component : Component) (before : Entries Op) (request : Request)
    (rest : List Request) : fulfil component block before (request :: rest) =
      fulfilOne component block before request >>= fun ops =>
        fulfil component block ops rest := by
  rw [fulfil, fulfilOne, Step.bind_assoc]
  congr 1
  funext found
  cases found with
  | none => rfl
  | some op =>
      rw [Step.bind_assoc]
      rfl

theorem stuck_fulfilOne_iff {component : Component} {before : Entries Op} {task : Task} :
    Stuck (fulfilOne component block before (task.request ctx block) s).1 ↔
      Stuck (task.make ctx block s).1 := by
  refine stuck_bind_iff_left fun found => ?_
  cases found with
  | none => exact .pure before
  | some op =>
      have howner : task.element.owner?.isSome = true := by cases task <;> rfl
      exact (neverStuck_nameFor howner).bind fun name => .pure _

theorem stuck_fulfil_iff {component : Component} {tasks : List Task} {before : Entries Op} :
    Stuck (fulfil component block before (tasks.map (·.request ctx block)) s).1 ↔
      ∃ earlier task, earlier ++ [task] <+: tasks ∧ ∃ ops t,
        fulfil component block before (earlier.map (·.request ctx block)) s = (.ok ops, t) ∧
          Stuck (task.make ctx block t).1 :=
  stuck_fold_iff
    (fun ops tasks => fulfil component block ops (tasks.map (Task.request ctx block)))
    (fun ops task => fulfilOne component block ops (Task.request ctx block task))
    (fun _ => rfl) (fun _ _ _ => fulfil_cons ..) fun _ _ _ => stuck_fulfilOne_iff

/-! ## Blocks -/

theorem neverStuck_addOps (component : Component) (ops fragment : Entries Op) :
    NeverStuck (Step.ofExcept (addOps block component ops fragment)) := by
  refine fun s => not_stuck_of_reported fun failure h => ?_
  rw [Failure.Reported, Failure.isCompileFailure, category_of_addOps h]

/-- The operations of a component are added to those before them. -/
def collectOne (ctx : Context) (schema : Schema) (block : String) (before : Entries Op)
    (component : Component) : Step (Entries Op) := do
  let fragment ← ctx.generate schema block component
  Step.ofExcept (addOps block component before fragment)

theorem stuck_collectOne_iff {schema : Schema} {before : Entries Op} {component : Component} :
    Stuck (ctx.collectOne schema block before component s).1 ↔
      Stuck (ctx.generate schema block component s).1 :=
  stuck_bind_iff_left fun fragment => neverStuck_addOps component before fragment

theorem stuck_collect_iff {schema : Schema} {components : List Component}
    {before : Entries Op} : Stuck (ctx.collect schema block before components s).1 ↔
      ∃ earlier component, earlier ++ [component] <+: components ∧ ∃ ops t,
        ctx.collect schema block before earlier s = (.ok ops, t) ∧
          Stuck (ctx.generate schema block component t).1 := by
  refine stuck_fold_iff (ctx.collect schema block) (ctx.collectOne schema block)
    (fun _ => rfl) (fun ops component rest => ?_) fun _ _ _ => stuck_collectOne_iff
  rw [collectOne, Step.bind_assoc]
  rfl

theorem stuck_planBlock_iff {schema : Schema} {components : List Component} :
    Stuck (ctx.planBlock schema block components s).1 ↔
      Stuck (ctx.collect schema block [] components s).1 :=
  stuck_bind_iff_left fun _ => (NeverStuck.report _).bind fun _ => .pure _

theorem stuck_planAll_iff {schema : Schema} {plan : Entries (List Component)} :
    Stuck (ctx.planAll schema plan s).1 ↔
      ∃ earlier planned, earlier ++ [planned] <+: plan ∧ ∃ blocks t,
        ctx.planAll schema earlier s = (.ok blocks, t) ∧
          Stuck (ctx.planBlock schema planned.1 planned.2 t).1 := by
  induction plan generalizing s with
  | nil => exact iff_of_false (not_stuck_ok _) (by simp)
  | cons first rest ih =>
      obtain ⟨name, components⟩ := first
      rw [exists_turn_cons_iff]
      refine stuck_bind_iff.trans <| or_congr ⟨fun h => ⟨[], s, rfl, h⟩, ?_⟩ ⟨?_, ?_⟩
      · rintro ⟨_, t, h, hstuck⟩
        obtain ⟨-, rfl⟩ := Step.pure_eq_ok.mp h
        exact hstuck
      · rintro ⟨block, t, h, hstuck⟩
        rw [stuck_bind_iff_left fun _ => .pure _] at hstuck
        obtain ⟨earlier, planned, hprefix, blocks, u, hrun, hstuck⟩ := ih.mp hstuck
        refine ⟨earlier, planned, hprefix, (name, block) :: blocks, u, ?_, hstuck⟩
        rw [planAll, Step.bind_of_ok h]
        exact Step.bind_of_ok hrun
      · rintro ⟨earlier, planned, hprefix, _, u, hrun, hstuck⟩
        simp only [planAll, Step.bind_eq_ok, Step.pure_eq_ok] at hrun
        obtain ⟨block, t, h, blocks, v, hrun, _, hv⟩ := hrun
        refine ⟨block, t, h, ?_⟩
        rw [stuck_bind_iff_left fun _ => .pure _]
        exact ih.mpr ⟨earlier, planned, hprefix, blocks, v, hrun, hv ▸ hstuck⟩

/-! ## Plans -/

/-- Carrying out a plan comes to a task of a block in a session: the blocks, components
and tasks before it are done. -/
def ComesTo (ctx : Context) (schema : Schema) (start : Session) (block : String) (task : Task)
    (reached : Session) : Prop :=
  ∃ planned components blocks t, planned ++ [(block, components)] <+: ctx.config.blockplan ∧
    ctx.planAll schema planned start = (.ok blocks, t) ∧
  ∃ collected component ops u, collected ++ [component] <+: components ∧
    ctx.collect schema block [] collected t = (.ok ops, u) ∧
  ∃ fulfilled made, fulfilled ++ [task] <+: component.tasks schema ∧
    fulfil component block [] (fulfilled.map (·.request ctx block)) u = (.ok made, reached)

theorem ComesTo.mem_tasks {schema : Schema} {start reached : Session} {task : Task}
    (h : ctx.ComesTo schema start block task reached) :
    ∃ component, task ∈ Component.tasks schema component := by
  obtain ⟨_, _, _, _, _, _, _, component, _, _, _, _, _, _, hprefix, _⟩ := h
  exact ⟨component, hprefix.subset (by simp)⟩

/-- **A plan is stuck at a task** that carrying it out comes to. -/
theorem stuck_plan_iff {schema : Schema} :
    Stuck (ctx.planAll schema ctx.config.blockplan s).1 ↔ ∃ block task reached,
      ctx.ComesTo schema s block task reached ∧ Stuck (task.make ctx block reached).1 := by
  simp only [stuck_planAll_iff, stuck_planBlock_iff, stuck_collect_iff, generate, requests_eq,
    stuck_fulfil_iff]
  constructor
  · rintro ⟨planned, ⟨block, components⟩, hplan, blocks, t, hblocks, collected, component,
      hcomponents, ops, u, hops, fulfilled, task, htasks, made, reached, hmade, hstuck⟩
    exact ⟨block, task, reached, ⟨planned, components, blocks, t, hplan, hblocks, collected,
      component, ops, u, hcomponents, hops, fulfilled, made, htasks, hmade⟩, hstuck⟩
  · rintro ⟨block, task, reached, ⟨planned, components, blocks, t, hplan, hblocks, collected,
      component, ops, u, hcomponents, hops, fulfilled, made, htasks, hmade⟩, hstuck⟩
    exact ⟨planned, (block, components), hplan, blocks, t, hblocks, collected, component,
      hcomponents, ops, u, hops, fulfilled, task, htasks, made, reached, hmade, hstuck⟩

theorem stuck_compile_iff {schema : Schema} (hs : schema.Sound)
    (hfields : ∀ t, t ∈ schema.types → t.fields ≠ []) :
    Stuck (ctx.compile schema s).1 ↔ ∃ block task reached,
      ctx.ComesTo schema (Step.prime schema s).2 block task reached ∧ task.Unfit ctx reached := by
  have hplan : Stuck (ctx.compile schema s).1 ↔
      Stuck (ctx.planAll schema ctx.config.blockplan (Step.prime schema s).2).1 := by
    rw [compile, Step.prime_bind]
    exact stuck_bind_iff_left fun blocks _ => not_stuck_ok _
  have hmake {block : String} {task : Task} {reached : Session}
      (h : ctx.ComesTo schema (Step.prime schema s).2 block task reached) :
      Stuck (task.make ctx block reached).1 ↔ task.Unfit ctx reached := by
    obtain ⟨component, htask⟩ := h.mem_tasks
    exact task.stuck_make_iff (hs.isKeyed htask) (Task.hasFields_of_mem hfields htask)
  rw [hplan, stuck_plan_iff]
  constructor
  · rintro ⟨block, task, reached, h, hstuck⟩
    exact ⟨block, task, reached, h, (hmake h).mp hstuck⟩
  · rintro ⟨block, task, reached, h, hunfit⟩
    exact ⟨block, task, reached, h, (hmake h).mpr hunfit⟩

end Context

/-! ## Configurations -/

/-- The type bindings come to a pattern that overtaxes the matcher; they are read behind
the naming template. -/
def Config.Overtaxes (c : Config) (m : Matcher) : Prop :=
  (∃ t, Template.read c.namingTemplate = .ok t) ∧
    ∃ before entry, before ++ [entry] <+: c.typeBindings ∧
      (∀ other, other ∈ before → ∃ test, m.read true other.1 = .ok test) ∧
        m.Overtaxes true entry.1

theorem Library.failsBy_ofPatterns_iff {p : Pattern.Fault → Prop} {bindings : Entries String}
    {m : Matcher} (name : String) :
    FailsBy p (ofPatterns name (bindings.map fun entry => (entry.1, some entry.2)) m) ↔
      ∃ before entry, before ++ [entry] <+: bindings ∧
        (∀ other, other ∈ before → ∃ test, m.read true other.1 = .ok test) ∧
          FailsBy p (m.read true entry.1) := by
  have hread (entry : String × String) (recipe : List Char → Option String) :
      (∃ rule, (Rule.ofPattern · recipe) <$> m.read true entry.1 = .ok rule) ↔
        ∃ test, m.read true entry.1 = .ok test := by
    cases m.read true entry.1 <;> simp
  rw [ofPatterns, failsBy_map_iff, List.mapM_map, failsBy_mapM_iff]
  simp only [Function.comp_apply, hread, failsBy_map_iff]

theorem Context.stuck_create_iff (c : Config) (m : Matcher) :
    Stuck (Context.create c m) ↔ c.Overtaxes m := by
  unfold create Config.Overtaxes
  cases Template.read c.namingTemplate with
  | error fault => exact iff_of_false (not_stuck_error rfl) (by simp)
  | ok t =>
      have hread : ∃ other, (.ok t : Except Template.Fault Template) = .ok other := ⟨t, rfl⟩
      dsimp only
      rw [and_iff_right hread]
      by_cases hempty : c.typeBindings.isEmpty = true
      · rw [if_pos hempty, List.isEmpty_iff.mp hempty]
        exact iff_of_false (not_stuck_ok _) (by simp)
      · rw [if_neg hempty]
        refine Iff.trans ?_ (Library.failsBy_ofPatterns_iff "type_bindings")
        cases Library.ofPatterns "type_bindings"
          (c.typeBindings.map fun entry => (entry.1, some entry.2)) m with
        | error fault =>
            rw [failsBy_error_iff]
            exact stuck_error_iff.trans (Failure.isCompileFailure_ofPattern_iff fault rfl)
        | ok library => exact iff_of_false (not_stuck_ok _) (not_failsBy_ok _)

/-- The compile of a schema, whose names are entered first, comes to an unfit task, unless
the type bindings overtax the matcher before. -/
def Config.UnfitFor (c : Config) (s : Schema) (m : Matcher := .standard) : Prop :=
  c.Overtaxes m ∨ ∃ ctx start, Context.create c m = .ok (ctx, start) ∧ ∃ block task reached,
    ctx.ComesTo s (Step.prime s start).2 block task reached ∧ task.Unfit ctx reached

theorem Workload.stuck_generate_iff {s : Schema} {c : Config} {m : Matcher} (hs : s.Sound)
    (hfields : ∀ t, t ∈ s.types → t.fields ≠ []) :
    Stuck (Workload.generate s c m).1 ↔ c.UnfitFor s m := by
  unfold Config.UnfitFor
  rw [← Context.stuck_create_iff]
  cases hcreate : Context.create c m with
  | error failure =>
      have hg : (Workload.generate s c m).1 = .error failure := by rw [generate, hcreate]
      rw [hg, stuck_error_iff, stuck_error_iff]
      simp
  | ok started =>
      obtain ⟨ctx, start⟩ := started
      have hg : (Workload.generate s c m).1 = (ctx.compile s start).1 := by
        rw [generate, hcreate]
      rw [hg, Context.stuck_compile_iff hs hfields, or_iff_right (not_stuck_ok _)]
      constructor
      · exact fun h => ⟨ctx, start, rfl, h⟩
      · rintro ⟨_, _, h, hunfit⟩
        cases h
        exact hunfit

/-! ## Compiling with transformers -/

/-- Compiling comes to settings of a transformer that overtax the matcher, to a transformer
that is unfit for what those before it make, or to a configuration or a task that is unfit. -/
def Workload.Unfit (s : Schema) (c : Config) (m : Matcher := .standard) : Prop :=
  Catalog.builtIn.SomeUnfit c.transformers m ∨
    ∃ transformers, Catalog.builtIn.getAll c.transformers m = .ok transformers ∧
      (Transformer.SomeUnfit transformers s ∨
        ∃ made, (Transformer.applyAll transformers s).1 = .ok made ∧ c.UnfitFor made m)

theorem Workload.compile_eq_of_applyAll {s made : Schema} {c : Config} {m : Matcher}
    {transformers : List Transformer}
    (hall : Catalog.builtIn.getAll c.transformers m = .ok transformers)
    (happly : (Transformer.applyAll transformers s).1 = .ok made) :
    (Workload.compile s c m).1 = (Workload.generate made c m).1 := by
  rcases ha : Transformer.applyAll transformers s with ⟨found, log⟩
  rw [ha] at happly
  change found = .ok made at happly
  subst happly
  rw [compile, Exporter.create, hall]
  simp only [Exporter.ofTransformers, ha]
  rfl

theorem Workload.compile_eq_error_of_applyAll {s : Schema} {c : Config} {m : Matcher}
    {transformers : List Transformer} {failure : Failure}
    (hall : Catalog.builtIn.getAll c.transformers m = .ok transformers)
    (happly : (Transformer.applyAll transformers s).1 = .error failure) :
    (Workload.compile s c m).1 = .error failure := by
  rcases ha : Transformer.applyAll transformers s with ⟨found, log⟩
  rw [ha] at happly
  change found = .error failure at happly
  subst happly
  rw [compile, Exporter.create, hall]
  simp only [Exporter.ofTransformers, ha]
  rfl

theorem Workload.stuck_compile_iff {s : Schema} (hs : s.Valid) (c : Config) (m : Matcher) :
    Stuck (Workload.compile s c m).1 ↔ Workload.Unfit s c m := by
  unfold Workload.Unfit
  rw [← Catalog.stuck_getAll_iff]
  cases hall : Catalog.builtIn.getAll c.transformers m with
  | error failure =>
      have hc : (Workload.compile s c m).1 = .error failure := by
        rw [compile, Exporter.create, hall]
      rw [hc, stuck_error_iff, stuck_error_iff]
      simp
  | ok transformers =>
      have hone {p : List Transformer → Prop} :
          (∃ others, Except.ok transformers = (.ok others : Except Failure _) ∧ p others) ↔
            p transformers := by simp
      rw [or_iff_right (not_stuck_ok _), hone, ← Transformer.stuck_applyAll_iff]
      cases happly : (Transformer.applyAll transformers s).1 with
      | error failure =>
          rw [compile_eq_error_of_applyAll hall happly, stuck_error_iff, stuck_error_iff]
          simp
      | ok made =>
          have hsound := Transformer.sound_applyAll hs.toSound happly
          have hfields : ∀ t, t ∈ made.types → t.fields ≠ [] :=
            fun t ht => hs.types t (Transformer.mem_types_of_applyAll happly t ht)
          rw [compile_eq_of_applyAll hall happly, Workload.stuck_generate_iff hsound hfields,
            or_iff_right (not_stuck_ok made)]
          simp

/-- **What a compile of a valid schema ends in.** It ends in a workload or in a compile
failure exactly when it comes to nothing that is unfit, whatever reads its patterns. -/
theorem Workload.compile_outcome {s : Schema} (hs : s.Valid) (c : Config) (m : Matcher) :
    ((∃ w, (Workload.compile s c m).1 = .ok w) ∨
      ∃ failure, (Workload.compile s c m).1 = .error failure ∧
        failure.isCompileFailure = true) ↔ ¬Workload.Unfit s c m := by
  rw [← not_stuck_iff, Workload.stuck_compile_iff hs c m]

/-- Compiling the orders comes to nothing that is unfit. -/
theorem Workload.compile_outcome_orders :
    Schema.orders.Valid ∧ ¬Workload.Unfit .orders .readsAndWrites := by
  have hall : Catalog.builtIn.getAll Config.readsAndWrites.transformers = .ok [] := rfl
  have hc := Workload.compile_eq_of_applyAll hall (s := .orders) rfl
  obtain ⟨w, hw⟩ := Exporter.exists_workload_orders
  exact ⟨Schema.valid_orders,
    (Workload.compile_outcome Schema.valid_orders .readsAndWrites .standard).mp (Or.inl ⟨w, hc.trans hw⟩)⟩

/-- A table whose weight of reads is no finite number, in a schema of its own. -/
def Schema.endlessReads : Schema where
  keyspaces := []
  types := []
  tables := [{
    keyspace := "shop"
    name := "orders"
    columns := [⟨"id", "int", .partitionKey, some "shop", some "orders"⟩]
    partitionKeys := ["id"]
    clusteringColumns := []
    clusteringOrders := []
    stats := some [("weighted_reads", .text "inf")]
    compactStorage := false }]

/-- A configuration with one block of reads. -/
def Config.reads : Config where
  namingTemplate := Template.standard
  partitionMultiplier := .ofInt 1
  timeouts := .standard
  elideUnusedTables := false
  blockplan := [("main", [.select])]
  transformers := []
  typeBindings := []

/-- A valid schema with an endless weight makes a compile fail without a report. -/
theorem Workload.compile_endlessReads :
    Schema.endlessReads.Valid ∧ Config.reads.Valid ∧ ∃ failure,
      (Workload.compile .endlessReads .reads).1 = .error failure ∧
        failure.isCompileFailure = false := by
  have hs : Schema.endlessReads.Valid := by decide +kernel
  have hc : Config.reads.Valid := by decide +kernel
  refine ⟨hs, hc, .infiniteWhole, ?_, rfl⟩
  decide +kernel

end CqlWorkload
