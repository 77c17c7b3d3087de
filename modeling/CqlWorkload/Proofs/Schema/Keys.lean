import CqlWorkload.Proofs.Schema.Validity
import CqlWorkload.Workload.Predicate

/-!
# Key columns of valid tables

Every name of a key list is the name of a column, so the key columns of a valid
table are as many as its key names and in their order.  A predicate over all
keys qualifies the key columns, and one over as many keys as the partition key
has qualifies the columns of the partition key.

**Identity.** In a sound schema a keyspace, a user type, a table or a column is
determined by the names that say where it is declared.
-/

namespace CqlWorkload

namespace Table

variable {t : Table}

theorem mem_of_column? {name : String} {c : Column} (h : t.column? name = some c) :
    c ∈ t.columns ∧ c.name = name :=
  ⟨List.mem_of_find?_eq_some h, by simpa using List.find?_some h⟩

theorem WellKeyed.exists_column (h : t.WellKeyed) {key : String} (hk : key ∈ t.keyNames) :
    ∃ c, t.column? key = some c := by
  obtain ⟨c, hc, hn⟩ := List.mem_map.mp (h.declared key hk)
  exact Option.isSome_iff_exists.mp
    (List.find?_isSome.mpr ⟨c, hc, by simpa using hn⟩)

/-- The columns found under names that all have a column. -/
theorem map_name_filterMap_column? {keys : List String}
    (h : ∀ key, key ∈ keys → ∃ c, t.column? key = some c) :
    (keys.filterMap t.column?).map (·.name) = keys := by
  induction keys with
  | nil => rfl
  | cons key rest ih =>
      obtain ⟨c, hc⟩ := h key (by simp)
      have ih := ih fun k hk => h k (List.mem_cons_of_mem _ hk)
      rw [List.filterMap_cons_some hc, List.map_cons, ih, (mem_of_column? hc).2]

theorem WellKeyed.names_partitionColumns (h : t.WellKeyed) :
    t.partitionColumns.map (·.name) = t.partitionKeys :=
  map_name_filterMap_column? fun _ hk => h.exists_column (List.mem_append_left _ hk)

theorem WellKeyed.names_clusteringKeyColumns (h : t.WellKeyed) :
    t.clusteringKeyColumns.map (·.name) = t.clusteringColumns :=
  map_name_filterMap_column? fun _ hk => h.exists_column (List.mem_append_right _ hk)

theorem WellKeyed.names_keyColumns (h : t.WellKeyed) :
    t.keyColumns.map (·.name) = t.keyNames := by
  rw [keyColumns, List.map_append, h.names_partitionColumns, h.names_clusteringKeyColumns]
  rfl

theorem WellKeyed.length_partitionColumns (h : t.WellKeyed) :
    t.partitionColumns.length = t.partitionKeys.length := by
  rw [← h.names_partitionColumns, List.length_map]

theorem WellKeyed.partitionColumns_ne_nil (h : t.WellKeyed) : t.partitionColumns ≠ [] := by
  intro hn
  have := h.names_partitionColumns
  rw [hn] at this
  exact h.partitioned this.symm

theorem WellKeyed.keyColumns_ne_nil (h : t.WellKeyed) : t.keyColumns ≠ [] :=
  List.append_ne_nil_of_left_ne_nil h.partitionColumns_ne_nil _

theorem WellKeyed.exists_isLastPartitionKey (h : t.WellKeyed) :
    ∃ c, c ∈ t.columns ∧ t.isLastPartitionKey c = true := by
  have hlast := List.getLast?_eq_getLast_of_ne_nil h.partitioned
  have hkey := List.mem_append_left t.clusteringColumns (List.getLast_mem h.partitioned)
  obtain ⟨c, hc⟩ := h.exists_column hkey
  obtain ⟨hm, hn⟩ := mem_of_column? hc
  exact ⟨c, hm, by rw [isLastPartitionKey, hlast, hn, beq_self_eq_true]⟩

theorem mem_columns_of_mem_partitionColumns {c : Column} (h : c ∈ t.partitionColumns) :
    c ∈ t.columns := by
  obtain ⟨key, _, hc⟩ := List.mem_filterMap.mp h
  exact (mem_of_column? hc).1

theorem mem_columns_of_mem_keyColumns {c : Column} (h : c ∈ t.keyColumns) : c ∈ t.columns := by
  rcases List.mem_append.mp h with h | h
  · exact mem_columns_of_mem_partitionColumns h
  · obtain ⟨key, _, hc⟩ := List.mem_filterMap.mp h
    exact (mem_of_column? hc).1

theorem mem_columns_of_mem_nonKeyColumns {c : Column} (h : c ∈ t.nonKeyColumns) :
    c ∈ t.columns :=
  (List.mem_filter.mp h).1

theorem WellKeyed.columns_ne_nil (h : t.WellKeyed) : t.columns ≠ [] := by
  obtain ⟨c, hc⟩ := List.exists_mem_of_ne_nil _ h.partitionColumns_ne_nil
  exact List.ne_nil_of_mem (mem_columns_of_mem_partitionColumns hc)

theorem WellKeyed.length_partitionKeys_le (h : t.WellKeyed) :
    t.partitionKeys.length ≤ t.keyColumns.length := by
  rw [keyColumns, List.length_append, h.length_partitionColumns]
  omega

/-- A predicate over all keys qualifies all key columns. -/
theorem WellKeyed.predicateColumns_zero (h : t.WellKeyed) :
    t.predicateColumns 0 = t.keyColumns := by
  have hl := h.length_partitionKeys_le
  apply List.take_of_length_le
  simp only [requestedKeys]
  omega

/-- A predicate over the length of the partition key qualifies the partition key. -/
theorem WellKeyed.predicateColumns_partition (h : t.WellKeyed) :
    t.predicateColumns t.partitionKeys.length = t.partitionColumns := by
  have hp : 0 < t.partitionKeys.length := List.length_pos_of_ne_nil h.partitioned
  have hl := h.length_partitionKeys_le
  have hr : (max (requestedKeys t.keyColumns.length t.partitionKeys.length)
      (t.partitionKeys.length : Int)).toNat = t.partitionColumns.length := by
    rw [h.length_partitionColumns]
    simp only [requestedKeys]
    split_ifs <;> omega
  rw [predicateColumns, hr, keyColumns, List.take_left]

end Table

/-! ## Identity -/

namespace Schema

variable {s : Schema}

theorem Sound.keyspace_eq (h : s.Sound) {a b : Keyspace} (ha : a ∈ s.keyspaces)
    (hb : b ∈ s.keyspaces) (hn : a.name = b.name) : a = b :=
  List.inj_on_of_nodup_map ((repeated?_eq_none_iff s).mp h.distinct).1 ha hb hn

theorem Sound.userType_eq (h : s.Sound) {a b : UserType} (ha : a ∈ s.types) (hb : b ∈ s.types)
    (hk : a.keyspace = b.keyspace) (hn : a.name = b.name) : a = b := by
  refine List.inj_on_of_nodup_map ((repeated?_eq_none_iff s).mp h.distinct).2.1 ha hb ?_
  rw [UserType.fullName, UserType.fullName, hk, hn]

theorem Sound.table_eq (h : s.Sound) {a b : Table} (ha : a ∈ s.tables) (hb : b ∈ s.tables)
    (hk : a.keyspace = b.keyspace) (hn : a.name = b.name) : a = b := by
  refine List.inj_on_of_nodup_map ((repeated?_eq_none_iff s).mp h.distinct).2.2 ha hb ?_
  rw [Table.fullName, Table.fullName, hk, hn]

def HasColumn (s : Schema) (c : Column) : Prop := ∃ t, t ∈ s.tables ∧ c ∈ t.columns

theorem Sound.column_eq (h : s.Sound) {a b : Column} (ha : s.HasColumn a) (hb : s.HasColumn b)
    (hk : a.keyspace = b.keyspace) (ht : a.table = b.table) (hn : a.name = b.name) : a = b := by
  obtain ⟨t, htm, ha⟩ := ha
  obtain ⟨u, hum, hb⟩ := hb
  have hat := (h.tables t htm).column ha
  have hbu := (h.tables u hum).column hb
  have hkeyspace : t.keyspace = u.keyspace :=
    Option.some.inj (hat.1.symm.trans (hk.trans hbu.1))
  have hname : t.name = u.name := Option.some.inj (hat.2.symm.trans (ht.trans hbu.2))
  obtain rfl := h.table_eq htm hum hkeyspace hname
  exact List.inj_on_of_nodup_map (h.tables t htm).wellKeyed.columns ha hb hn

theorem Sound.nodup_keyspaces (h : s.Sound) : s.keyspaces.Nodup :=
  ((repeated?_eq_none_iff s).mp h.distinct).1.of_map

theorem Sound.nodup_types (h : s.Sound) : s.types.Nodup :=
  ((repeated?_eq_none_iff s).mp h.distinct).2.1.of_map

theorem Sound.nodup_tables (h : s.Sound) : s.tables.Nodup :=
  ((repeated?_eq_none_iff s).mp h.distinct).2.2.of_map

end Schema

end CqlWorkload
