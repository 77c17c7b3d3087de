import CqlWorkload.Proofs.Text.Separator
import CqlWorkload.Proofs.Transform.Fitness
import CqlWorkload.Proofs.Workload.Task

/-!
# Unfit statements and statistics

Three things keep an operation from being made although the configuration is in
order: its statement would have an empty slot, a weight of its table is no finite
number, or the number of partitions of its table is none; a statistic with too many
digits to be written counts as no number.  A schema may hold all of them and be valid.

**Slots.** In a sound schema the only slots that can be empty are those of names and
of the replication of a keyspace (`fault?_statement_eq_none_iff`).

**Statistics.** Whatever is drawn from statistics is stuck for numbers that cannot be
written or are not finite, and for them only.
-/

namespace CqlWorkload

/-! ## Whole numbers -/

theorem Double.isFinite_of_isNaN {x : Double} (h : x.isNaN = true) : x.isFinite = false := by
  cases x with
  | nan => rfl
  | signed negative rank => cases h

/-- A whole number can be drawn from the finite numbers only. -/
theorem Failure.stuck_whole_iff (pick : Int → Int → Int) (x : Double) :
    Stuck (whole (x.wholeBy pick)) ↔ x.isFinite = false := by
  rw [Double.wholeBy]
  split_ifs with hn hf
  · exact iff_of_true ⟨.nanWhole, rfl, rfl⟩ (Double.isFinite_of_isNaN hn)
  · exact iff_of_false (not_stuck_ok _) (by simp [hf])
  · exact iff_of_true ⟨.infiniteWhole, rfl, rfl⟩ (by simpa using hf)

namespace Table

variable {t : Table} {name : String} {multiplier : Double}

/-- A statistic from which no ratio can be drawn: it has too many digits, or is no finite
number. -/
def Unweighable (t : Table) (name : String) : Prop :=
  t.hasStats = true ∧ (Statistic.Unwritten t.statistics name ∨
    ∃ x, Statistic.numeric t.statistics name t.fullName = .ok x ∧
      (x.mul (.ofInt Statistic.resolution)).isFinite = false)

/-- Reads that no ratio can be drawn from, or writes if there is one of reads. -/
def Immeasurable (t : Table) : Prop :=
  t.Unweighable Statistic.readsName ∨
    (∃ n, t.readRatio = .ok n) ∧ t.Unweighable Statistic.writesName

/-- A number of partitions that no modulus can be drawn from. -/
def Uncountable (t : Table) (multiplier : Double) : Prop :=
  t.hasStats = true ∧ (Statistic.Unwritten t.statistics Statistic.partitionsName ∨
    ∃ x, Statistic.numeric t.statistics Statistic.partitionsName t.fullName = .ok x ∧
      ((x.mul multiplier).add (.nearest false 1 2)).isFinite = false)

theorem stuck_ratioFor_iff : Stuck (t.ratioFor name) ↔ t.Unweighable name := by
  unfold ratioFor Unweighable
  split
  next hstats =>
    rw [and_iff_right hstats, ← Statistic.stuck_numeric_iff t.fullName]
    cases hx : Statistic.numeric t.statistics name t.fullName with
    | error failure => simp [stuck_error_iff]
    | ok x =>
        rw [or_iff_right (not_stuck_ok x)]
        refine (Failure.stuck_whole_iff Int.tdiv _).trans ?_
        simp
  next hstats => exact iff_of_false (not_stuck_ok _) fun hu => hstats hu.1

theorem stuck_totalRatio_iff : Stuck t.totalRatio ↔ t.Immeasurable := by
  unfold totalRatio Immeasurable
  split
  next hstats =>
    rw [← stuck_ratioFor_iff, ← stuck_ratioFor_iff, ← readRatio, ← writeRatio]
    cases hreads : t.readRatio with
    | error failure => simp
    | ok reads =>
        cases hwrites : t.writeRatio with
        | error failure => simp [not_stuck_ok]
        | ok writes => simp [not_stuck_ok]
  next hstats =>
    refine iff_of_false (not_stuck_ok _) ?_
    rintro (hu | ⟨_, hu⟩)
    · exact hstats hu.1
    · exact hstats hu.1

theorem stuck_partitionModulo_iff (hstats : t.hasStats = true) :
    Stuck (t.partitionModulo multiplier) ↔ t.Uncountable multiplier := by
  unfold partitionModulo Uncountable
  rw [and_iff_right hstats, ← Statistic.stuck_numeric_iff t.fullName]
  cases hx : Statistic.numeric t.statistics Statistic.partitionsName t.fullName with
  | error failure => simp [stuck_error_iff]
  | ok x =>
      rw [or_iff_right (not_stuck_ok x)]
      refine (Failure.stuck_whole_iff Int.fdiv _).trans ?_
      simp

end Table

/-! ## Empty slots -/

namespace Statement

/-- An insert has as many placeholders as columns. -/
def Even : Statement → Prop
  | .insert _ _ columns placeholders => columns.length = placeholders.length
  | _ => True

theorem fault?_eq_none_iff (s : Statement) :
    s.fault? = none ↔ (∀ slot, slot ∈ s.slots → slot.2 = false) ∧ s.Even := by
  unfold fault?
  cases hf : s.slots.find? (·.2) with
  | some slot =>
      have hm := List.mem_of_find?_eq_some hf
      have hs : slot.2 = true := List.find?_some hf
      simp only [reduceCtorEq, false_iff, not_and]
      exact fun hall => absurd (hall slot hm) (by simp [hs])
  | none =>
      have hall : ∀ slot, slot ∈ s.slots → slot.2 = false := by
        simpa using List.find?_eq_none.mp hf
      rw [and_iff_right hall]
      cases s <;> simp [Even]

theorem fault?_update_eq_none_iff {keyspace table assignments predicate : String}
    (ha : assignments ≠ "") (hp : predicate ≠ "") :
    (Statement.update keyspace table assignments predicate).fault? = none ↔
      ¬(keyspace = "" ∨ table = "") := by
  rw [fault?_eq_none_iff]
  simp [slots, Even, ha, hp]

end Statement

namespace Context

theorem equation_ne_empty (c : Column) (b : Binding) : equation c b ≠ "" := by
  simp [equation, String.append_eq_empty_iff]

theorem assignment_ne_empty (c : Column) (b : Binding) : assignment c b ≠ "" := by
  unfold assignment
  split
  · simp [String.append_eq_empty_iff]
  · exact equation_ne_empty c b

theorem predicateText_ne_empty (bound : Need → Binding) {columns : List Column}
    (h : columns ≠ []) : predicateText bound columns ≠ "" := by
  refine Text.joinWith_ne_empty (by simpa using h) fun text ht => ?_
  obtain ⟨c, _, rfl⟩ := List.mem_map.mp ht
  exact equation_ne_empty c _

theorem assignmentsText_ne_empty (bound : Need → Binding) {columns : List Column}
    (h : columns ≠ []) : assignmentsText bound columns ≠ "" := by
  refine Text.joinWith_ne_empty (by simpa using h) fun text ht => ?_
  obtain ⟨c, _, rfl⟩ := List.mem_map.mp ht
  exact assignment_ne_empty c _

end Context

namespace Task

/-- A statement with an empty slot. -/
def Unsayable : Task → Prop
  | .createKeyspace k => k.name = "" ∨ k.isReplicated = false
  | .dropKeyspace k => k.name = ""
  | .createType t => t.keyspace = "" ∨ t.name = ""
  | .createTable t | .insert t | .select t | .scan t | .update t =>
    t.keyspace = "" ∨ t.name = ""
  | .dropType _ | .dropTable _ | .truncate _ => False

/-- The ratio of a task is no finite number. -/
def Unweighable : Task → Prop
  | .insert t | .update t => t.Unweighable Statistic.writesName
  | .select t | .scan t => t.Unweighable Statistic.readsName
  | _ => False

theorem stuck_ratio_iff (task : Task) : Stuck task.ratio ↔ task.Unweighable := by
  cases task with
  | insert t | update t => exact (stuck_map_iff some _).trans Table.stuck_ratioFor_iff
  | select t | scan t => exact (stuck_map_iff some _).trans Table.stuck_ratioFor_iff
  | _ => exact iff_of_false (not_stuck_ok _) id

/-- **Slots.** The statement of a task about a sound element has no fault exactly when
the names that it shows are there. -/
theorem fault?_statement_eq_none_iff {c : Config} {task : Task} (hkeyed : task.IsKeyed)
    (hfields : ∀ t, task.element = .userType t → t.fields ≠ [])
    (happlies : task.applies c = true) (multiplier : Double) (bound : Need → Binding) :
    (task.statement multiplier bound).fault? = none ↔ ¬task.Unsayable := by
  rw [Statement.fault?_eq_none_iff]
  cases task with
  | createKeyspace k =>
      cases hb : Replication.body? k.replication <;>
        simp [statement, Statement.slots, Statement.Even, Unsayable, hb, Keyspace.isReplicated]
  | dropKeyspace k => simp [statement, Statement.slots, Statement.Even, Unsayable]
  | createType t =>
      have hf := hfields t rfl
      simp [statement, Statement.slots, Statement.Even, Unsayable, hf]
  | createTable t =>
      have hc := (hkeyed t rfl).columns_ne_nil
      have hp := (hkeyed t rfl).partitioned
      simp [statement, Context.tableStatement, Statement.slots, Statement.Even, Unsayable, hc, hp]
  | insert t =>
      have hc := (hkeyed t rfl).columns_ne_nil
      simp [statement, Statement.slots, Statement.Even, Unsayable, hc]
  | select t =>
      have hp := Context.predicateText_ne_empty bound (hkeyed t rfl).keyColumns_ne_nil
      simp [statement, Statement.slots, Statement.Even, Unsayable, hp]
  | scan t =>
      have hp := Context.predicateText_ne_empty bound (hkeyed t rfl).partitionColumns_ne_nil
      simp [statement, Statement.slots, Statement.Even, Unsayable, hp]
  | update t =>
      have hn : t.nonKeyColumns ≠ [] := by simpa [applies] using happlies
      have hp := Context.predicateText_ne_empty bound (hkeyed t rfl).keyColumns_ne_nil
      have ha := Context.assignmentsText_ne_empty bound hn
      simp [statement, Statement.slots, Statement.Even, Unsayable, hp, ha]
  | dropType t | dropTable t | truncate t =>
      have hf : t.fullName ≠ "" := by
        simp [UserType.fullName, Table.fullName, String.append_eq_empty_iff]
      simp [statement, Statement.slots, Statement.Even, Unsayable, hf]

end Task

end CqlWorkload
