import CqlWorkload.Proofs.Workload.Placeholders

/-!
# Elision of unused tables

Two compiles whose configurations differ in the elision of unused tables only have the
same bindings.  The operations of a block under elision are those that it has without,
except for the ones that create tables whose total ratio is zero (`Elision`).

**Names and timeouts.** An elided operation asks for no name and its timeout is not
compared with the others.  Neither shows in the operations that are left: a name is
what the naming template makes of its element, and a timeout in effect is the
configured one, whether the block has it or the operation.
-/

namespace CqlWorkload

/-! ## What is elided -/

namespace Task

/-- A table to be created that is neither read nor written. -/
def IsIdle : Task → Prop
  | .createTable t => t.totalRatio = .ok 0
  | _ => False

/-- Elision leaves out idle tables, and nothing else that would be there without it. -/
theorem applies_eliding_iff (c : Config) (task : Task) :
    task.applies { c with elideUnusedTables := true } = true ↔
      task.applies { c with elideUnusedTables := false } = true ∧ ¬task.IsIdle := by
  cases task with
  | createTable t =>
      cases hr : t.totalRatio <;> simp [applies, IsIdle, hr, Except.toOption]
  | _ => simp [applies, IsIdle]

theorem IsIdle.needs_eq_nil {task : Task} (h : task.IsIdle) (multiplier : Double) :
    task.needs multiplier = [] := by
  cases task with
  | createTable t => rfl
  | _ => cases h

end Task

theorem flatMap_filter_of_eq_nil {α β : Type} {p : α → Bool} {f : α → List β} {items : List α}
    (h : ∀ a, a ∈ items → p a = false → f a = []) :
    (items.filter p).flatMap f = items.flatMap f := by
  induction items with
  | nil => rfl
  | cons a rest ih =>
      have ih := ih fun b hb => h b (List.mem_cons_of_mem a hb)
      cases ha : p a with
      | true => rw [List.filter_cons_of_pos ha, List.flatMap_cons, List.flatMap_cons, ih]
      | false =>
          rw [List.filter_cons_of_neg (by simp [ha]), List.flatMap_cons,
            h a (List.mem_cons_self ..) ha, List.nil_append, ih]

namespace Config

variable {c : Config} {s : Schema}

theorem isIdle_of_not_applies {components : List Component} {task : Task}
    (hm : task ∈ tasks { c with elideUnusedTables := false } s components)
    (h : task.applies { c with elideUnusedTables := true } = false) : task.IsIdle := by
  obtain ⟨component, _, hm⟩ := List.mem_flatMap.mp hm
  by_contra hused
  have ha := (Task.applies_eliding_iff c task).mpr ⟨(List.mem_filter.mp hm).2, hused⟩
  rw [h] at ha
  cases ha

variable (c s)

/-- The tasks under elision are among those without. -/
theorem tasks_eliding (components : List Component) :
    tasks { c with elideUnusedTables := true } s components =
      (tasks { c with elideUnusedTables := false } s components).filter
        (·.applies { c with elideUnusedTables := true }) := by
  simp only [tasks, List.filter_flatMap, List.filter_filter]
  refine congrArg (List.flatMap · components) (funext fun component => ?_)
  refine List.filter_congr fun task _ => ?_
  rw [Bool.eq_iff_iff, Bool.and_eq_true, and_iff_left_of_imp]
  exact fun h => ((Task.applies_eliding_iff c task).mp h).1

/-- Nothing that is elided needs a binding. -/
theorem needs_eliding :
    needs { c with elideUnusedTables := true } s =
      needs { c with elideUnusedTables := false } s := by
  refine congrArg (List.flatMap · c.blockplan) (funext fun planned => ?_)
  rw [tasks_eliding]
  exact flatMap_filter_of_eq_nil fun task hm h => (isIdle_of_not_applies hm h).needs_eq_nil _

end Config

/-! ## What is left -/

/-- Entries of two blocks with one name, whose operations are the same and have timeouts
in effect that agree. -/
structure Block.Matches (b b' : Block) (entry entry' : String × Op) : Prop where
  name : entry.1 = entry'.1
  matched : entry.2.Matches entry'.2
  timeout : ∃ x y, b.timeoutOf entry.2 = some x ∧ b'.timeoutOf entry'.2 = some y ∧ x.Agrees y

/-- The operations of a block with elision and without, for its tasks one after the
other: an idle task has no operation, and any other one has a matching operation. -/
inductive Elision (c : Config) (block : String) (b b' : Block) :
    List Task → Entries Op → Entries Op → Prop
  | nil : Elision c block b b' [] [] []
  | kept {task : Task} {entry entry' : String × Op} {tasks : List Task} {ops ops' : Entries Op}
    (used : ¬task.IsIdle) (named : entry'.1 = c.nameOf task.element (task.hints block))
    (matched : b.Matches b' entry entry') (rest : Elision c block b b' tasks ops ops') :
    Elision c block b b' (task :: tasks) (entry :: ops) (entry' :: ops')
  | elided {task : Task} {entry' : String × Op} {tasks : List Task} {ops ops' : Entries Op}
    (idle : task.IsIdle) (named : entry'.1 = c.nameOf task.element (task.hints block))
    (rest : Elision c block b b' tasks ops ops') :
    Elision c block b b' (task :: tasks) ops (entry' :: ops')

/-- The block of a plan with elision and the one without. -/
structure Elided (c : Config) (s : Schema) (planned : String × List Component)
    (blocks : (String × Block) × (String × Block)) : Prop where
  first : blocks.1.1 = planned.1
  second : blocks.2.1 = planned.1
  ops : Elision c planned.1 blocks.1.2 blocks.2.2
    (Config.tasks { c with elideUnusedTables := false } s planned.2)
    blocks.1.2.ops blocks.2.2.ops

/-- Operations of tasks, and operations of those of the tasks that a test admits. -/
theorem Elision.of_forall₂ {c : Config} {block : String} {b b' : Block} {p : Task → Bool}
    {R R' : Task → String × Op → Prop}
    (hname : ∀ task entry', R' task entry' → entry'.1 = c.nameOf task.element (task.hints block))
    (hkept : ∀ task entry entry', R task entry → R' task entry' → b.Matches b' entry entry')
    (hused : ∀ task, p task = true → ¬task.IsIdle) {tasks : List Task} {ops ops' : Entries Op}
    (hidle : ∀ task, task ∈ tasks → p task = false → task.IsIdle)
    (h : List.Forall₂ R (tasks.filter p) ops) (h' : List.Forall₂ R' tasks ops') :
    Elision c block b b' tasks ops ops' := by
  -- By induction on the operations without elision, of which there is one for every task.
  induction h' generalizing ops with
  | nil =>
      cases h
      exact .nil
  | @cons task entry' tasks ops' hr' hrs' ih =>
      have hrest := fun other hm => hidle other (List.mem_cons_of_mem task hm)
      cases hp : p task with
      | true =>
          rw [List.filter_cons_of_pos hp] at h
          cases h with
          | cons hr hrs =>
              exact .kept (hused task hp) (hname task entry' hr') (hkept task _ _ hr hr')
                (ih hrest hrs)
      | false =>
          rw [List.filter_cons_of_neg (by simp [hp])] at h
          exact .elided (hidle task (List.mem_cons_self ..) hp) (hname task entry' hr')
            (ih hrest h)

theorem forall₂_zip_right {α β γ : Type} {R : α → β → Prop} {S : α → γ → Prop} :
    ∀ {items : List α} {first : List β} {second : List γ}, List.Forall₂ R items first →
      List.Forall₂ S items second →
        List.Forall₂ (fun a pair => R a pair.1 ∧ S a pair.2) items (first.zip second)
  | _, _, _, .nil, .nil => .nil
  | _, _, _, .cons hr hrs, .cons hs hss => .cons ⟨hr, hs⟩ (forall₂_zip_right hrs hss)

/-! ## Two compiles -/

namespace Workload.Compiled

variable {s : Schema} {c : Config} {ctx ctx' : Context} {last last' : Session}
  {w w' : Workload}

/-- Two compiles of the same needs with the same names and recipes have the same bindings. -/
theorem bindings_eq_of {s' : Schema} {c' : Config} (h : w.Compiled s c ctx last)
    (h' : w'.Compiled s' c' ctx' last') (hneeds : c.needs s = c'.needs s')
    (hlibraries : c.libraries = c'.libraries)
    (hnames : ∀ e hints, c.nameOf e hints = c'.nameOf e hints) :
    last.bindings = last'.bindings := by
  have htemplate : ∀ e hints, last.registry.template.nameOf e hints =
      last'.registry.template.nameOf e hints := by
    intro e hints
    rw [h.named, h'.named, hnames]
  rw [h.accumulated, h'.accumulated, hneeds, hlibraries]
  exact Binding.accumulate_congr htemplate [] _

variable (h : w.Compiled s { c with elideUnusedTables := true } ctx last)
  (h' : w'.Compiled s { c with elideUnusedTables := false } ctx' last')

include h h'

theorem bindings_eliding : last.bindings = last'.bindings :=
  h.bindings_eq_of h' (Config.needs_eliding c s) (Config.libraries_congr rfl rfl)
    fun _ _ => rfl

/-- The operations of a task in the two workloads match. -/
theorem matches_eliding {b b' : Block} {block : String} {task : Task}
    {entry entry' : String × Op} (hentered : task.Entered ctx last b block entry)
    (hentered' : task.Entered ctx' last' b' block entry')
    (htimeout : ∃ x, b.timeoutOf entry.2 = some x ∧ x.Agrees (c.timeouts.get task.kind))
    (htimeout' : ∃ x, b'.timeoutOf entry'.2 = some x ∧ x.Agrees (c.timeouts.get task.kind)) :
    b.Matches b' entry entry' where
  name := by
    rw [hentered.name, hentered'.name, h.named, h'.named]
    rfl
  matched := by
    refine ⟨hentered.form.trans hentered'.form.symm, ?_,
      hentered.kind.trans hentered'.kind.symm,
      Except.ok.inj (hentered.ratio.symm.trans hentered'.ratio)⟩
    have hlibraries : ctx.libraries = ctx'.libraries := by
      rw [h.libraries, h'.libraries]
      exact Config.libraries_congr rfl rfl
    have hmultiplier : ctx.config.partitionMultiplier = ctx'.config.partitionMultiplier := by
      rw [h.config, h'.config]
    rw [hentered.statement, hentered'.statement, bindings_eliding h h', hlibraries, hmultiplier]
  timeout := by
    obtain ⟨x, hx, hagrees⟩ := htimeout
    obtain ⟨y, hy, hagrees'⟩ := htimeout'
    exact ⟨x, y, hx, hy, hagrees.trans hagrees'.symm⟩

/-- The blocks of the two workloads, one after the other. -/
theorem elided_blocks :
    List.Forall₂ (Elided c s) c.blockplan (w.blocks.zip w'.blocks) := by
  have hon := h.carriesOut.and h.timeouts
  have hoff := h'.carriesOut.and h'.timeouts
  refine (forall₂_zip_right hon hoff).imp ?_
  rintro planned ⟨block, block'⟩ ⟨⟨hname, hops⟩, hname', hops'⟩
  refine ⟨hname, hname', ?_⟩
  rw [Config.tasks_eliding] at hops
  refine Elision.of_forall₂ ?_ ?_ ?_ (fun task hm ha => Config.isIdle_of_not_applies hm ha)
    hops hops'
  · rintro task entry' ⟨hentered, _⟩
    rw [hentered.name, h'.named]
    rfl
  · rintro task entry entry' ⟨hentered, htimeout⟩ ⟨hentered', htimeout'⟩
    exact matches_eliding h h' hentered hentered' htimeout htimeout'
  · exact fun task ha => ((Task.applies_eliding_iff c task).mp ha).2

end Workload.Compiled

/-- **Elision.** Whether unused tables are elided shows in nothing but the operations that
create them: the bindings stay the same, and so do all other operations of every block,
their order, and the timeouts in effect. -/
theorem Exporter.elision_leaves {s : Schema} {c : Config} {transformers : List Transformer}
    {e e' : Exporter} {w w' : Workload} (hs : s.Valid)
    (he : (Exporter.ofTransformers s { c with elideUnusedTables := true } transformers).1 = .ok e)
    (he' : (Exporter.ofTransformers s { c with elideUnusedTables := false } transformers).1 =
      .ok e')
    (hw : e.workload.1 = .ok w) (hw' : e'.workload.1 = .ok w') :
    w.bindings = w'.bindings ∧ w.blocks.keys = w'.blocks.keys ∧
      List.Forall₂ (Elided c e.schema) c.blockplan (w.blocks.zip w'.blocks) := by
  obtain ⟨happly, hconfig⟩ := Exporter.ofTransformers_eq_ok he
  obtain ⟨happly', hconfig'⟩ := Exporter.ofTransformers_eq_ok he'
  have hschema : e.schema = e'.schema := Except.ok.inj (happly.symm.trans happly')
  have hsound := Transformer.sound_applyAll hs.toSound happly
  rw [workload, hconfig] at hw
  rw [workload, hconfig', ← hschema] at hw'
  obtain ⟨ctx, last, h⟩ := Workload.generate_eq_ok hsound hw
  obtain ⟨ctx', last', h'⟩ := Workload.generate_eq_ok hsound hw'
  refine ⟨?_, ?_, h.elided_blocks h'⟩
  · rw [h.bindings, h'.bindings, h.bindings_eliding h']
  · rw [h.carriesOut.keys_blocks, h'.carriesOut.keys_blocks]

/-! ## An example -/

/-- The orders and a table that is neither read nor written. -/
def Schema.archive : Schema where
  keyspaces := []
  types := []
  tables := [{
    keyspace := "shop"
    name := "archive"
    columns := [⟨"id", "int", .partitionKey, some "shop", some "archive"⟩]
    partitionKeys := ["id"]
    clusteringColumns := []
    clusteringOrders := []
    stats := some [("weighted_reads", .int 0), ("weighted_writes", .int 0)]
    compactStorage := false }] ++ Schema.orders.tables

/-- A configuration with one block that creates tables and reads them. -/
def Config.createAndRead (elide : Bool) : Config :=
  { Config.readsAndWrites with
    elideUnusedTables := elide, blockplan := [("main", [.schemaTables, .select])] }

theorem Exporter.exists_workload_archive (elide : Bool) :
    ∃ w, (Exporter.mk .archive (.createAndRead elide)).workload.1 = .ok w ∧
      w.opCount = if elide then 3 else 4 := by
  have hfound : ∀ elide, (Exporter.mk .archive (.createAndRead elide)).workload.1.toOption.any
      (fun w => w.opCount == if elide then 3 else 4) = true := by decide +kernel
  obtain ⟨w, hw, hcount⟩ := exists_workload (hfound elide)
  exact ⟨w, hw, eq_of_beq hcount⟩

theorem Exporter.elision_leaves_archive :
    Schema.archive.Valid ∧ ∃ w w',
      (Exporter.mk .archive (.createAndRead true)).workload.1 = .ok w ∧
      (Exporter.mk .archive (.createAndRead false)).workload.1 = .ok w' ∧
      w.opCount = 3 ∧ w'.opCount = 4 ∧ w.bindings = w'.bindings := by
  have hs : Schema.archive.Valid := by decide +kernel
  obtain ⟨w, hw, hcount⟩ := Exporter.exists_workload_archive true
  obtain ⟨w', hw', hcount'⟩ := Exporter.exists_workload_archive false
  obtain ⟨hbindings, _, _⟩ := @Exporter.elision_leaves .archive (.createAndRead true) []
    ⟨.archive, .createAndRead true⟩ ⟨.archive, .createAndRead false⟩ w w' hs rfl rfl hw hw'
  exact ⟨hs, w, w', hw, hw', hcount, hcount', hbindings⟩

end CqlWorkload
