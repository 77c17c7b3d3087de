import CqlWorkload.Proofs.Transform.Preservation
import CqlWorkload.Proofs.Workload.Step

/-!
# Unfit transformers

A transformer that is built from any settings may still be unfit for a schema: the
replication that it gives to a keyspace is no text and no mapping, or has a number
with too many digits to be written; the setting that lists keyspaces is nothing that
can be searched; or a count of reads or writes has too many digits.  Otherwise a
transformer fails for a statistic only, which is a compile failure (`stuck_apply_iff`).
-/

namespace CqlWorkload

/-! ## Statistics -/

namespace Statistic

variable {stats : Entries Statistic} {name : String}

/-- A statistic that is a number with too many digits to be written. -/
def Unwritten (stats : Entries Statistic) (name : String) : Prop :=
  ∃ n : Int, stats.get? name = some (.int n) ∧ Digit.isShort n.natAbs = false

theorem written_int (n : Int) : written (.int n) =
    if Digit.isShort n.natAbs then .ok (Value.int n).plainText else .error (Digit.tooMany "") := by
  simp [written, toValue, Value.writtenText, Value.isWritable]

theorem unwritten_iff : Unwritten stats name ↔
    ∃ statistic reason, stats.get? name = some statistic ∧ statistic.written = .error reason := by
  constructor
  · rintro ⟨n, hn, hlong⟩
    exact ⟨.int n, Digit.tooMany "", hn, by simp [written_int, hlong]⟩
  · rintro ⟨statistic, reason, hstatistic, hreason⟩
    cases statistic with
    | int n =>
        rw [written_int] at hreason
        split at hreason
        · cases hreason
        next hlong => exact ⟨n, hstatistic, by simpa using hlong⟩
    | float x => cases hreason
    | text s => cases hreason

/-- A number is drawn from a statistic unless its text is beyond the limit; that there is
none, or none in its text, is a compile failure. -/
theorem stuck_numeric_iff (owner : String) :
    Stuck (numeric stats name owner) ↔ Unwritten stats name := by
  rw [unwritten_iff]
  unfold numeric
  cases hget : stats.get? name with
  | none => exact iff_of_false (not_stuck_error rfl) (by simp)
  | some statistic =>
      cases hwritten : statistic.written with
      | error reason =>
          simp only [hwritten]
          exact iff_of_true (stuck_error_iff.mpr rfl) ⟨statistic, reason, rfl, hwritten⟩
      | ok text =>
          have hnone : ¬∃ other reason, some statistic = some other ∧
              other.written = .error reason := by
            rintro ⟨_, reason, ⟨⟩, h⟩
            rw [hwritten] at h
            cases h
          simp only [hwritten]
          refine iff_of_false ?_ hnone
          cases hnumber : numberOf? text with
          | none => exact not_stuck_error rfl
          | some x => exact not_stuck_ok x

end Statistic

theorem Failure.isCompileFailure_ofReplication (fault : Replication.Fault) :
    (ofReplication fault).isCompileFailure = false := by
  cases fault <;> rfl

namespace Transformer

/-- A setting that keyspaces cannot be looked up in. -/
def isUnsearchable : Option Value → Bool
  | none | some (.text _) | some (.list _) | some (.map _) => false
  | some _ => true

/-- A keyspace whose replication cannot be replaced by one without a text. -/
def UnfitAt (value : Value) (listed : Option Value) (k : Keyspace) : Prop :=
  isUnsearchable listed = true ∨
    isChosen listed k.name = .ok true ∧ Replication.body? value = none

/-- A table with reads, or writes while its reads are a number, that cannot be written. -/
def Uncounted (t : Table) : Prop :=
  t.hasStats = true ∧ (Statistic.Unwritten t.statistics readCountName ∨
    (∃ reads, Statistic.numeric t.statistics readCountName t.fullName = .ok reads) ∧
      Statistic.Unwritten t.statistics writeCountName)

/-- A transformer that cannot be applied to a schema: it comes to a keyspace, or behind
tables that can be counted to a table, for which it is unfit. -/
def Unfit (s : Schema) : Transformer → Prop
  | .replication value listed => ∃ k, k ∈ s.keyspaces ∧ UnfitAt value listed k
  | .ratios => ∃ before t, before ++ [t] <+: s.tables ∧
      (∀ other, other ∈ before → ∃ counts, countsOf other = .ok counts) ∧ Uncounted t
  | _ => False

/-- One of some transformers cannot be applied to what those before it make. -/
def SomeUnfit : List Transformer → Schema → Prop
  | [], _ => False
  | transformer :: rest, s =>
    transformer.Unfit s ∨ ∃ made, (transformer.apply s).1 = .ok made ∧ SomeUnfit rest made

/-! ## Replication -/

section Replication

variable {value : Value} {listed : Option Value}

/-- A keyspace is looked for among the listed ones, unless they cannot be searched. -/
theorem isChosen_cases (listed : Option Value) (name : String) :
    (isUnsearchable listed = true ∧ ∃ failure, isChosen listed name = .error failure ∧
        failure.isCompileFailure = false) ∨
      isUnsearchable listed = false ∧ ∃ chosen, isChosen listed name = .ok chosen := by
  cases listed with
  | none => exact Or.inr ⟨rfl, true, rfl⟩
  | some listed =>
      cases listed with
      | text | list | map => exact Or.inr ⟨rfl, _, rfl⟩
      | _ => exact Or.inl ⟨rfl, _, rfl, rfl⟩

/-- The first keyspace is replaced or kept, and then the others are. -/
theorem stuck_overrideAll_cons_iff {k : Keyspace} {rest : List Keyspace} {chosen : Bool}
    (hchosen : isChosen listed k.name = .ok chosen) :
    Stuck (overrideAll value listed (k :: rest)).1 ↔
      (chosen = true ∧ Replication.body? value = none) ∨
        Stuck (overrideAll value listed rest).1 := by
  rcases hrest : overrideAll value listed rest with ⟨found, more⟩
  cases chosen with
  | false =>
      rw [overrideAll, hchosen]
      cases found with
      | error failure => simp [hrest, stuck_error_iff]
      | ok replaced => simp [hrest, not_stuck_ok]
  | true =>
      rw [overrideAll, hchosen]
      simp only [if_true, overrideOne, Replication.body?_eq_none_iff]
      cases hbody : Replication.body value with
      | error fault =>
          have hfailure := Failure.isCompileFailure_ofReplication fault
          exact iff_of_true ⟨_, rfl, hfailure⟩ (Or.inl ⟨trivial, fault, rfl⟩)
      | ok body =>
          cases found with
          | error failure => simp [hrest, stuck_error_iff]
          | ok replaced => simp [hrest, not_stuck_ok]

theorem stuck_overrideAll_iff {keyspaces : List Keyspace} :
    Stuck (overrideAll value listed keyspaces).1 ↔
      ∃ k, k ∈ keyspaces ∧ UnfitAt value listed k := by
  induction keyspaces with
  | nil => exact iff_of_false (not_stuck_ok _) (by simp)
  | cons k rest ih =>
      rw [List.exists_mem_cons_iff, UnfitAt]
      rcases isChosen_cases listed k.name with
        ⟨hunsearchable, failure, hfailure, hf⟩ | ⟨hsearchable, chosen, hchosen⟩
      · have hstuck : (overrideAll value listed (k :: rest)).1 = .error failure := by
          rw [overrideAll, hfailure]
        rw [hstuck]
        exact iff_of_true (stuck_error_iff.mpr hf) (Or.inl (Or.inl hunsearchable))
      · rw [stuck_overrideAll_cons_iff hchosen, ih, hsearchable, hchosen]
        simp

end Replication

/-! ## Transformers -/

variable {s : Schema}

theorem stuck_countsOf_iff {t : Table} : Stuck (countsOf t) ↔ Uncounted t := by
  unfold countsOf Uncounted
  split
  next hstats =>
    rw [and_iff_right hstats, ← Statistic.stuck_numeric_iff, ← Statistic.stuck_numeric_iff]
    cases hreads : Statistic.numeric t.statistics readCountName t.fullName with
    | error failure => simp [stuck_error_iff]
    | ok reads =>
        cases hwrites : Statistic.numeric t.statistics writeCountName t.fullName with
        | error failure => simp [stuck_error_iff, not_stuck_ok]
        | ok writes => simp [not_stuck_ok]
  next hstats => exact iff_of_false (not_stuck_ok _) fun h => hstats h.1

/-- The tables are counted one after the other. -/
theorem withCounts_eq (tables : List Table) :
    withCounts tables = (tables.zip ·) <$> tables.mapM countsOf := by
  induction tables with
  | nil => rfl
  | cons t rest ih =>
      rw [withCounts, ih, List.mapM_cons]
      cases countsOf t with
      | error failure => rfl
      | ok counts => cases rest.mapM countsOf <;> rfl

/-- **A transformer is stuck exactly when it is unfit.** -/
theorem stuck_apply_iff (transformer : Transformer) :
    Stuck (transformer.apply s).1 ↔ transformer.Unfit s := by
  cases transformer with
  | keyspaceFilter included excluded => exact iff_of_false (not_stuck_ok _) id
  | replication value listed => exact (stuck_map_iff _ _).trans stuck_overrideAll_iff
  | ratios =>
      have hcounts : Stuck (apply .ratios s).1 ↔ Stuck (withCounts s.tables) := by
        rw [apply, applyRatios]
        cases withCounts s.tables with
        | error failure => exact stuck_error_iff.trans stuck_error_iff.symm
        | ok tables => exact iff_of_false (not_stuck_ok _) (not_stuck_ok _)
      rw [hcounts, withCounts_eq, stuck_map_iff, Stuck, failsBy_mapM_iff]
      simp only [← stuck_countsOf_iff, Unfit, Stuck]
  | clearing => exact iff_of_false (not_stuck_ok _) id

theorem stuck_applyAll_iff {transformers : List Transformer} :
    Stuck (applyAll transformers s).1 ↔ SomeUnfit transformers s := by
  induction transformers generalizing s with
  | nil => exact iff_of_false (not_stuck_ok _) id
  | cons transformer rest ih =>
      rw [SomeUnfit, ← stuck_apply_iff, applyAll]
      rcases ha : transformer.apply s with ⟨found, log⟩
      cases found with
      | error failure => simp [stuck_error_iff]
      | ok made =>
          rw [or_iff_right (not_stuck_ok made)]
          simp [← ih]

end Transformer
end CqlWorkload
