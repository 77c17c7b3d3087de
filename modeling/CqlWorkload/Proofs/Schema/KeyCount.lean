import CqlWorkload.Proofs.Schema.Keys

/-!
# Counts of key columns

A predicate may be asked for any number of key columns, also for none, for fewer than
the partition key has or for more than there are.  It always qualifies the first so
many of them, never fewer than the columns of the partition key (`keptKeys_eq`).

**Keeping and dropping.** A positive count says how many columns are kept and a negative
one how many are dropped, so that two counts may stand for the same columns.
-/

namespace CqlWorkload.Table

variable {t : Table} {count : Int}

/-- The number of key columns that a predicate qualifies for a count. -/
def keptKeys (t : Table) (count : Int) : Nat :=
  (max (requestedKeys t.keyColumns.length count) t.partitionKeys.length).toNat

theorem predicateColumns_eq_take (t : Table) (count : Int) :
    t.predicateColumns count = t.keyColumns.take (t.keptKeys count) :=
  rfl

/-- What is asked for is clamped to the partition key, and a count that would drop more
than there is drops everything else. -/
theorem keptKeys_eq (t : Table) (count : Int) :
    (t.keptKeys count : Int) = max (t.partitionKeys.length : Int)
      (if count = 0 then t.keyColumns.length
      else if 0 < count then min count t.keyColumns.length
      else max 0 (t.keyColumns.length + count)) := by
  simp only [keptKeys, requestedKeys]
  split_ifs <;> omega

theorem length_partitionKeys_le_keptKeys (t : Table) (count : Int) :
    t.partitionKeys.length ≤ t.keptKeys count := by
  have h := t.keptKeys_eq count
  omega

theorem WellKeyed.keptKeys_le (h : t.WellKeyed) (count : Int) :
    t.keptKeys count ≤ t.keyColumns.length := by
  have hp := h.length_partitionKeys_le
  have hk := t.keptKeys_eq count
  split_ifs at hk <;> omega

/-- A larger count keeps no fewer columns. -/
theorem keptKeys_mono {less more : Int} (hpos : 0 < less) (hle : less ≤ more) :
    t.keptKeys less ≤ t.keptKeys more := by
  have hless := t.keptKeys_eq less
  have hmore := t.keptKeys_eq more
  rw [if_neg (by omega), if_pos (by omega)] at hless hmore
  omega

/-- To keep so many columns is to drop the others. -/
theorem keptKeys_sub (hpos : 0 < count) (hlt : count < t.keyColumns.length) :
    t.keptKeys (count - t.keyColumns.length) = t.keptKeys count := by
  have hkeep := t.keptKeys_eq count
  have hdrop := t.keptKeys_eq (count - t.keyColumns.length)
  rw [if_neg (by omega), if_pos hpos] at hkeep
  rw [if_neg (by omega), if_neg (by omega)] at hdrop
  omega

theorem WellKeyed.length_keyColumns (h : t.WellKeyed) :
    t.keyColumns.length = t.keyNames.length := by
  rw [← h.names_keyColumns, List.length_map]

/-- The first key columns, at least as many as the partition key has, begin with it. -/
theorem WellKeyed.partitionColumns_prefix (h : t.WellKeyed) (count : Int) :
    t.partitionColumns <+: t.predicateColumns count := by
  rw [predicateColumns_eq_take, List.prefix_take_iff, h.length_partitionColumns]
  exact ⟨List.prefix_append _ _, t.length_partitionKeys_le_keptKeys count⟩

/-- **Key columns of a predicate.** In a valid table the key columns are those of the key
lists in their order, each once.  For every count the predicate qualifies the first of
them: all columns of the partition key, and as many as the count says if these are more.
To keep some but not all is to drop the others, and a larger positive count leaves out no
column of a smaller one. -/
theorem Valid.predicateColumns_counted (h : t.Valid) :
    (t.keyColumns.map (·.name) = t.keyNames ∧ t.keyNames.Nodup) ∧
    (∀ count : Int, t.predicateColumns count <+: t.keyColumns ∧
      t.partitionColumns <+: t.predicateColumns count ∧
      ((t.predicateColumns count).length : Int) = max (t.partitionKeys.length : Int)
        (if count = 0 then t.keyNames.length
        else if 0 < count then min count t.keyNames.length
        else max 0 (t.keyNames.length + count))) ∧
    (∀ count : Int, 0 < count → count < t.keyNames.length →
      t.predicateColumns (count - t.keyNames.length) = t.predicateColumns count) ∧
    ∀ less more : Int, 0 < less → less ≤ more →
      t.predicateColumns less <+: t.predicateColumns more := by
  have hkeyed := h.wellKeyed
  simp only [← hkeyed.length_keyColumns]
  refine ⟨⟨hkeyed.names_keyColumns, hkeyed.keys⟩, fun count => ⟨?_, ?_, ?_⟩, ?_, ?_⟩
  · exact List.take_prefix _ _
  · exact hkeyed.partitionColumns_prefix count
  · rw [predicateColumns_eq_take, List.length_take_of_le (hkeyed.keptKeys_le count), keptKeys_eq]
  · intro count hpos hlt
    rw [predicateColumns_eq_take, predicateColumns_eq_take, keptKeys_sub hpos hlt]
  · intro less more hpos hle
    exact List.take_prefix_take_left (keptKeys_mono hpos hle)

/-- Readings of a sensor by day and hour, with some clustering orders. -/
def readings (orders : List Order) : Table where
  keyspace := "site"
  name := "readings"
  columns := [
    ⟨"value", "double", .regular, some "site", some "readings"⟩,
    ⟨"hour", "int", .clusteringKey, some "site", some "readings"⟩,
    ⟨"day", "date", .clusteringKey, some "site", some "readings"⟩,
    ⟨"sensor", "text", .partitionKey, some "site", some "readings"⟩]
  partitionKeys := ["sensor"]
  clusteringColumns := ["day", "hour"]
  clusteringOrders := orders
  stats := none
  compactStorage := false

/-- To keep two of three key columns is to drop one, and all but the partition key can be
dropped. -/
theorem predicateColumns_counted_readings : (readings []).Valid ∧
    (readings []).predicateColumns (-1) = (readings []).predicateColumns 2 ∧
    ((readings []).predicateColumns (-5)).length = 1 := by
  have h : (readings []).Valid := by decide +kernel
  obtain ⟨-, hcounted, hdropped, -⟩ := h.predicateColumns_counted
  exact ⟨h, hdropped 2 (by decide) (by decide), Int.ofNat.inj (hcounted (-5)).2.2⟩

end CqlWorkload.Table
