import CqlWorkload.Proofs.Workload.Columns
import CqlWorkload.Proofs.Workload.Run

/-!
# Stuck tasks

A task is stuck for reasons that lie in its element alone, as soon as the steps
before them succeed.  The numbers that decide whether a table is left out, and into
how many partitions its rows are divided, are drawn before its statement is written;
then the statement is written, and the ratio is drawn last (`stuck_make_iff`).
-/

namespace CqlWorkload

open Step

namespace Task

/-- The columns that the statement of a task takes values for, in order. -/
def columns : Task → List Column
  | .insert t => t.columns
  | .select t => t.keyColumns
  | .scan t => t.partitionColumns
  | .update t => t.nonKeyColumns ++ t.keyColumns
  | _ => []

def bindColumn (ctx : Context) : Task → Column → Step Binding
  | .insert t => ctx.insertBinding t
  | _ => ctx.bindPlain

/-- A task whose operation is not left out. -/
def IsDue (ctx : Context) : Task → Prop
  | .createTable t => ctx.isElided t = .ok false
  | .update t => t.nonKeyColumns ≠ []
  | _ => True

/-- A number that is drawn before the statement of a task is written is not finite. -/
def StartsUnfit (ctx : Context) (s : Session) : Task → Prop
  | .createTable t => ctx.config.elideUnusedTables = true ∧ t.Immeasurable
  | .insert t => ∃ before c, before ++ [c] <+: t.columns ∧
      ∃ u, Context.BindsAll (ctx.insertBinding t) before s u ∧ t.isLastPartitionKey c = true ∧
        t.Uncountable ctx.config.partitionMultiplier
  | _ => False

/-- The columns of a task are bound, but its statement has an empty slot, or its ratio
is no finite number. -/
def EndsUnfit (ctx : Context) (s : Session) (task : Task) : Prop :=
  task.IsDue ctx ∧ (∃ u, Context.BindsAll (task.bindColumn ctx) task.columns s u) ∧
    (task.Unsayable ∨ task.Unweighable)

/-- A task that cannot be carried out although nothing is wrong with what was asked. -/
def Unfit (ctx : Context) (s : Session) (task : Task) : Prop :=
  task.StartsUnfit ctx s ∨ task.EndsUnfit ctx s

/-- A user type of a task has fields. -/
def HasFields (task : Task) : Prop := ∀ t, task.element = .userType t → t.fields ≠ []

theorem hasFields_of_mem {s : Schema} (h : ∀ t, t ∈ s.types → t.fields ≠ [])
    {component : Component} {task : Task} (hm : task ∈ component.tasks s) : task.HasFields :=
  fun t ht => h t (Schema.Sound.mem_types_of_mem_tasks hm ht)

variable {ctx : Context} {block : String} {s : Session} {task : Task}

/-- A task that starts with its statement, and binds no columns for it. -/
theorem unfit_iff_of_columns_eq_nil (hstarts : ¬task.StartsUnfit ctx s) (hdue : task.IsDue ctx)
    (hcolumns : task.columns = []) :
    task.Unfit ctx s ↔ task.Unsayable ∨ task.Unweighable := by
  rw [Unfit, or_iff_right hstarts, EndsUnfit, and_iff_right hdue, and_iff_right]
  rw [hcolumns]
  exact ⟨s, .nil s⟩

/-! ## Statements -/

theorem ignoresLog_opOf (ctx : Context) (form : Form) (kind : TimeoutKind) (statement : Statement)
    (ratio : Except Failure (Option Int)) :
    IgnoresLog (ctx.opOf form kind statement ratio) :=
  (IgnoresLog.ofExcept _).bind fun _ => (IgnoresLog.ofExcept _).bind fun _ =>
    (IgnoresLog.ofExcept _).bind fun _ => .pure _

theorem stuck_opOf_iff (task : Task) {statement : Statement}
    (h : statement.fault? = none ↔ ¬task.Unsayable) :
    Stuck (ctx.opOf task.form task.kind statement task.ratio s).1 ↔
      task.Unsayable ∨ task.Unweighable := by
  cases hf : statement.fault? with
  | some fault =>
      have hu : task.Unsayable := by simpa [hf] using h
      have htext : statement.text = .error (.badStatement fault) := by rw [Statement.text, hf]
      rw [Context.opOf, htext]
      exact iff_of_true ⟨.badStatement fault, rfl, rfl⟩ (Or.inl hu)
  | none =>
      have htext : statement.text = .ok statement.render := by rw [Statement.text, hf]
      rw [or_iff_right (h.mp hf), ← stuck_ratio_iff, Context.opOf, htext, Context.timeout_eq]
      exact stuck_bind_iff_left fun _ => .pure _

theorem stuck_statement_iff (bound : Need → Binding) (hkeyed : task.IsKeyed)
    (hfields : task.HasFields) (happlies : task.applies ctx.config = true) :
    Stuck (ctx.opOf task.form task.kind
      (task.statement ctx.config.partitionMultiplier bound) task.ratio s).1 ↔
        task.Unsayable ∨ task.Unweighable :=
  stuck_opOf_iff task (fault?_statement_eq_none_iff hkeyed hfields happlies _ _)

/-! ## Schemas -/

theorem stuck_createKeyspace_iff (k : Keyspace) :
    Stuck (ctx.createKeyspace k s).1 ↔ (Task.createKeyspace k).Unfit ctx s := by
  have hdue : (Task.createKeyspace k).IsDue ctx := trivial
  rw [unfit_iff_of_columns_eq_nil id hdue rfl, Context.createKeyspace]
  cases hbody : Replication.body? k.replication with
  | none =>
      obtain ⟨fault, hfault⟩ := Replication.body?_eq_none_iff.mp hbody
      have hreplication : Context.replicationBody k = .error (.ofReplication fault) := by
        rw [Context.replicationBody, hfault]
        rfl
      rw [hreplication]
      refine iff_of_true ?_ (Or.inl (Or.inr ?_))
      · exact stuck_error_iff.mpr (Failure.isCompileFailure_ofReplication fault)
      · rw [Keyspace.isReplicated, hbody]
  | some body =>
      have hkeyed : (Task.createKeyspace k).IsKeyed := fun _ h => by cases h
      have hfault := fault?_statement_eq_none_iff (c := ctx.config) hkeyed
        (fun _ h => by cases h) rfl ctx.config.partitionMultiplier fun _ => ⟨"", ""⟩
      rw [statement, hbody] at hfault
      rw [Context.replicationBody_eq_ok_iff.mpr hbody]
      exact stuck_opOf_iff (.createKeyspace k) hfault

theorem stuck_isElided_iff {t : Table} :
    Stuck (ctx.isElided t) ↔ ctx.config.elideUnusedTables = true ∧ t.Immeasurable := by
  unfold Context.isElided
  split
  next helide =>
    rw [stuck_map_iff, Table.stuck_totalRatio_iff, and_iff_right helide]
  next helide => exact iff_of_false (not_stuck_ok _) fun h => helide h.1

theorem stuck_createTable_iff {t : Table} (hkeyed : t.WellKeyed) :
    Stuck (ctx.createTable block t s).1 ↔ (Task.createTable t).Unfit ctx s := by
  rw [Context.createTable, stuck_bind_iff]
  refine or_congr stuck_isElided_iff ?_
  have hlog : IgnoresLog (ctx.simpleOp .create (Context.tableStatement t)) :=
    ignoresLog_opOf ctx _ _ _ _
  have hop (h : (Task.createTable t).applies ctx.config = true) :
      Stuck (ctx.simpleOp .create (Context.tableStatement t) s).1 ↔
        (Task.createTable t).Unsayable ∨ (Task.createTable t).Unweighable :=
    stuck_statement_iff (fun _ => ⟨"", ""⟩) (fun _ h => by cases h; exact hkeyed)
      (fun _ h => by cases h) h
  constructor
  · rintro ⟨elided, u, hfound, h⟩
    obtain ⟨helided, rfl⟩ := ofExcept_eq_ok.mp hfound
    cases elided with
    | true => exact absurd h ((NeverStuck.report _).bind (fun _ => .pure none) s)
    | false =>
        simp only [Bool.false_eq_true, if_false] at h
        have hu := (hop (applies_of_isElided helided)).mp (hlog.stuck_noted_iff.mp h)
        exact ⟨helided, ⟨s, .nil s⟩, hu⟩
  · rintro ⟨hdue, -, hu⟩
    refine ⟨false, s, ofExcept_eq_ok.mpr ⟨hdue, rfl⟩, ?_⟩
    simp only [Bool.false_eq_true, if_false]
    exact hlog.stuck_noted_iff.mpr ((hop (applies_of_isElided hdue)).mpr hu)

/-! ## Rows -/

theorem stuck_insertOp_iff {t : Table} (hkeyed : (Task.insert t).IsKeyed) :
    Stuck (ctx.insertOp t s).1 ↔ (Task.insert t).Unfit ctx s := by
  have hone := ctx.ignoresLog_insertBinding t
  have hplaceholders : IgnoresLog (ctx.insertPlaceholders t t.columns) := by
    rw [Context.insertPlaceholders_eq_bindEach]
    exact Context.ignoresLog_bindEach hone
  -- Nothing behind the note on counter tables reads the log.
  have hwritten := hplaceholders.bind fun placeholders => ignoresLog_opOf ctx .prepared .insert
    (.insert t.keyspace t.name (t.columns.map (·.name)) placeholders) (some <$> t.writeRatio)
  refine hwritten.stuck_noted_iff.trans (stuck_bind_iff.trans (or_congr ?_ ?_))
  · rw [Context.insertPlaceholders_eq_bindEach, Context.stuck_bindEach_iff]
    simp only [Context.stuck_insertBinding_iff, StartsUnfit]
  · have hop {placeholders : List String} {u : Session}
        (h : ctx.insertPlaceholders t t.columns s = (.ok placeholders, u)) :
        Stuck (ctx.preparedOp .insert (.insert t.keyspace t.name (t.columns.map (·.name))
          placeholders) t.writeRatio u).1 ↔
            (Task.insert t).Unsayable ∨ (Task.insert t).Unweighable := by
      obtain ⟨_, rfl⟩ := Context.insertPlaceholders_eq_ok h
      exact stuck_statement_iff _ hkeyed (fun _ h => by cases h) rfl
    constructor
    · rintro ⟨placeholders, u, h, hstuck⟩
      have hu := (hop h).mp hstuck
      rw [Context.insertPlaceholders_eq_bindEach] at h
      exact ⟨trivial, ⟨u, (Context.exists_bindEach_iff _).mp ⟨placeholders, h⟩⟩, hu⟩
    · rintro ⟨-, ⟨u, hbound⟩, hu⟩
      obtain ⟨placeholders, h⟩ :=
        (Context.exists_bindEach_iff fun _ b => b.placeholder).mpr hbound
      rw [bindColumn, columns, ← Context.insertPlaceholders_eq_bindEach] at h
      exact ⟨placeholders, u, h, (hop h).mpr hu⟩

/-- A query reads the columns that a count of keys stands for. -/
theorem stuck_queryOp_iff {t : Table} {count : Int} (hkeyed : task.IsKeyed)
    (hfields : task.HasFields) (hform : task.form = .prepared)
    (hratio : task.ratio = some <$> t.readRatio)
    (happlies : task.applies ctx.config = true)
    (hstatement : ∀ bound, task.statement ctx.config.partitionMultiplier bound =
      .select t.keyspace t.name (Context.predicateText bound (t.predicateColumns count))
        Statement.defaultLimit) :
    Stuck (ctx.queryOp task.kind count t s).1 ↔
      (∃ u, Context.BindsAll ctx.bindPlain (t.predicateColumns count) s u) ∧
        (task.Unsayable ∨ task.Unweighable) := by
  rw [← Context.exists_predicate_iff, Context.queryOp]
  refine (Context.neverStuck_predicate t count).stuck_bind_iff_and fun text u h => ?_
  obtain ⟨_, rfl⟩ := Context.predicate_eq_ok h
  rw [← hstatement, Context.preparedOp, ← hratio, ← hform]
  exact stuck_statement_iff _ hkeyed hfields happlies

theorem stuck_updateOp_iff {t : Table} (hkeyed : t.WellKeyed) :
    Stuck (ctx.updateOp t s).1 ↔ (Task.update t).Unfit ctx s := by
  unfold Context.updateOp
  split
  next hempty =>
    refine iff_of_false ((NeverStuck.report _).bind (fun _ => .pure none) s) ?_
    rintro (hu | ⟨hdue, -⟩)
    · exact hu
    · exact hdue (by simpa using hempty)
  next hempty =>
    have hempty : t.nonKeyColumns ≠ [] := by simpa using hempty
    -- The predicate is bound in whatever session the assignments lead to.
    have hop : ∀ assignments u, ctx.assignments t s = (.ok assignments, u) →
        (Stuck ((do
          let predicate ← ctx.predicate t 0
          ctx.preparedOp .update (.update t.keyspace t.name assignments predicate)
            t.writeRatio : Step (Option Op)) u).1 ↔
          (∃ v, Context.BindsAll ctx.bindPlain t.keyColumns u v) ∧
            ((Task.update t).Unsayable ∨ (Task.update t).Unweighable)) := by
      intro assignments u hassignments
      rw [← hkeyed.predicateColumns_zero, ← Context.exists_predicate_iff]
      refine (Context.neverStuck_predicate t 0).stuck_bind_iff_and fun predicate v h => ?_
      obtain ⟨_, rfl⟩ := Context.assignments_eq_ok hassignments
      obtain ⟨_, rfl⟩ := Context.predicate_eq_ok h
      rw [hkeyed.predicateColumns_zero]
      exact stuck_opOf_iff (.update t)
        (Statement.fault?_update_eq_none_iff (Context.assignmentsText_ne_empty _ hempty)
          (Context.predicateText_ne_empty _ hkeyed.keyColumns_ne_nil))
    rw [(Context.neverStuck_assignments t).stuck_bind_iff]
    constructor
    · rintro ⟨assignments, u, h, hstuck⟩
      obtain ⟨⟨v, hkeys⟩, hu⟩ := (hop assignments u h).mp hstuck
      have hfirst := Context.exists_assignments_iff.mp ⟨assignments, h⟩
      exact Or.inr ⟨hempty, ⟨v, Context.bindsAll_append_iff.mpr ⟨u, hfirst, hkeys⟩⟩, hu⟩
    · rintro (hu | ⟨-, ⟨v, hbound⟩, hu⟩)
      · exact hu.elim
      · obtain ⟨u, hfirst, hkeys⟩ := Context.bindsAll_append_iff.mp hbound
        obtain ⟨assignments, h⟩ := Context.exists_assignments_iff.mpr hfirst
        exact ⟨assignments, u, h, (hop assignments u h).mpr ⟨⟨v, hkeys⟩, hu⟩⟩

/-- **A task is stuck exactly when it is unfit.** -/
theorem stuck_make_iff (task : Task) (hkeyed : task.IsKeyed) (hfields : task.HasFields) :
    Stuck (task.make ctx block s).1 ↔ task.Unfit ctx s := by
  cases task with
  | createKeyspace k => exact stuck_createKeyspace_iff k
  | createTable t => exact stuck_createTable_iff (hkeyed t rfl)
  | insert t => exact stuck_insertOp_iff hkeyed
  | select t =>
      have hcolumns := (hkeyed t rfl).predicateColumns_zero
      refine (stuck_queryOp_iff hkeyed hfields rfl rfl rfl fun bound => ?_).trans ?_
      · rw [hcolumns]
        rfl
      · rw [hcolumns]
        exact ((or_iff_right id).trans (and_iff_right trivial)).symm
  | scan t =>
      have hcolumns := (hkeyed t rfl).predicateColumns_partition
      refine (stuck_queryOp_iff hkeyed hfields rfl rfl rfl fun bound => ?_).trans ?_
      · rw [hcolumns]
        rfl
      · rw [hcolumns]
        exact ((or_iff_right id).trans (and_iff_right trivial)).symm
  | update t => exact stuck_updateOp_iff (hkeyed t rfl)
  | createType | dropType | dropTable | dropKeyspace | truncate =>
      refine (stuck_statement_iff (fun _ => ⟨"", ""⟩) hkeyed hfields rfl).trans ?_
      refine (unfit_iff_of_columns_eq_nil id ?_ rfl).symm
      trivial

end Task
end CqlWorkload
