import CqlWorkload.Failure
import CqlWorkload.Proofs.Schema.Keys

/-!
# Roles of columns

Checking a table tells from its key lists what each column is for.

**Acceptance.** A table whose fields have the right kinds is accepted exactly when its
keys are well formed.

**Division.** In a valid table every column has one place: in the partition key, among
the clustering columns or outside of the key (`Valid.perm_columns`).  The key lists and
the roles of the columns tell it alike (`Valid.divided`).

**Declared roles.** A role may be declared for a column before the table is checked.
The key lists and the type of a column overrule it; a column that neither of them
settles keeps its declared role (`bind_eq_bind_iff`).
-/

namespace CqlWorkload.Table

variable {t u : Table}

/-! ## Columns by name -/

/-- A column is found under its own name. -/
theorem WellKeyed.column?_name (h : t.WellKeyed) {c : Column} (hc : c ∈ t.columns) :
    t.column? c.name = some c := by
  have hsome : (t.column? c.name).isSome = true :=
    List.find?_isSome.mpr ⟨c, hc, beq_self_eq_true c.name⟩
  obtain ⟨d, hd⟩ := Option.isSome_iff_exists.mp hsome
  obtain ⟨hm, hn⟩ := mem_of_column? hd
  rw [hd, List.inj_on_of_nodup_map h.columns hm hc hn]

/-- Looking up names that all have a column gives these columns. -/
theorem map_lookup {keys : List String} (h : ∀ key, key ∈ keys → ∃ c, t.column? key = some c) :
    keys.map t.lookup = (keys.filterMap t.column?).map .ok := by
  induction keys with
  | nil => rfl
  | cons key rest ih =>
      obtain ⟨c, hc⟩ := h key (by simp)
      have hlookup : t.lookup key = .ok c := by rw [lookup, hc]
      rw [List.filterMap_cons_some hc, List.map_cons, List.map_cons, hlookup,
        ih fun k hk => h k (List.mem_cons_of_mem _ hk)]

theorem WellKeyed.mem_keyColumns_iff (h : t.WellKeyed) {c : Column} :
    c ∈ t.keyColumns ↔ c ∈ t.columns ∧ c.name ∈ t.keyNames := by
  constructor
  · intro hc
    rw [← h.names_keyColumns]
    exact ⟨mem_columns_of_mem_keyColumns hc, List.mem_map_of_mem hc⟩
  · rintro ⟨hc, hn⟩
    rw [keyColumns, partitionColumns, clusteringKeyColumns, ← List.filterMap_append]
    exact List.mem_filterMap.mpr ⟨c.name, hn, h.column?_name hc⟩

/-! ## Columns by role -/

theorem WellKeyed.not_mem_clusteringColumns (h : t.WellKeyed) {name : String}
    (hp : name ∈ t.partitionKeys) : name ∉ t.clusteringColumns :=
  fun hc => (List.nodup_append.mp h.keys).2.2 name hp name hc rfl

theorem roleOf_of_mem_partitionKeys {c : Column} (h : c.name ∈ t.partitionKeys) :
    t.roleOf c = .partitionKey :=
  if_pos (List.contains_iff_mem.mpr h)

theorem roleOf_of_mem_clusteringColumns {c : Column} (hp : c.name ∉ t.partitionKeys)
    (h : c.name ∈ t.clusteringColumns) : t.roleOf c = .clusteringKey := by
  rw [roleOf, if_neg (mt List.contains_iff_mem.mp hp), if_pos (List.contains_iff_mem.mpr h)]

theorem roleOf_of_not_mem_keyNames {c : Column} (h : c.name ∉ t.keyNames) :
    t.roleOf c = if c.isCounter then .counter else c.role := by
  obtain ⟨hp, hc⟩ := not_or.mp (mt List.mem_append.mpr h)
  rw [roleOf, if_neg (mt List.contains_iff_mem.mp hp), if_neg (mt List.contains_iff_mem.mp hc)]

/-- The columns of a valid table have the roles that it gives them. -/
theorem Valid.roleOf_eq (h : t.Valid) {c : Column} (hc : c ∈ t.columns) :
    t.roleOf c = c.role := by
  rw [← h.bound] at hc
  obtain ⟨raw, _, rfl⟩ := List.mem_map.mp hc
  rw [← h.bound]
  exact roleOf_bind t raw _ _

theorem Valid.role_eq_partitionKey_iff (h : t.Valid) {c : Column} (hc : c ∈ t.columns) :
    c.role = .partitionKey ↔ c.name ∈ t.partitionKeys := by
  by_cases hp : c.name ∈ t.partitionKeys
  · exact iff_of_true (h.roleOf_eq hc ▸ roleOf_of_mem_partitionKeys hp) hp
  · refine iff_of_false (fun hr => ?_) hp
    have hkey : c.name ∈ t.keyNames := h.wellKeyed.roles c hc (by rw [Column.isKey, hr]; rfl)
    have hclustering := (List.mem_append.mp hkey).resolve_left hp
    rw [← h.roleOf_eq hc, roleOf_of_mem_clusteringColumns hp hclustering] at hr
    cases hr

theorem Valid.role_eq_clusteringKey_iff (h : t.Valid) {c : Column} (hc : c ∈ t.columns) :
    c.role = .clusteringKey ↔ c.name ∈ t.clusteringColumns := by
  by_cases hp : c.name ∈ t.partitionKeys
  · refine iff_of_false (fun hr => ?_) (h.wellKeyed.not_mem_clusteringColumns hp)
    rw [(h.role_eq_partitionKey_iff hc).mpr hp] at hr
    cases hr
  · refine ⟨fun hr => ?_, fun hk => ?_⟩
    · have hkey : c.name ∈ t.keyNames := h.wellKeyed.roles c hc (by rw [Column.isKey, hr]; rfl)
      exact (List.mem_append.mp hkey).resolve_left hp
    · rw [← h.roleOf_eq hc, roleOf_of_mem_clusteringColumns hp hk]

/-- In a valid table a column has a key role exactly when a key list names it. -/
theorem Valid.isKey_iff (h : t.Valid) {c : Column} (hc : c ∈ t.columns) :
    c.isKey = true ↔ c.name ∈ t.keyNames := by
  rw [keyNames, List.mem_append, ← h.role_eq_partitionKey_iff hc,
    ← h.role_eq_clusteringKey_iff hc, Column.isKey]
  cases c.role <;> simp [Role.isKey]

/-! ## One place for every column -/

/-- The columns that no key list names. -/
def outerColumns (t : Table) : List Column := t.columns.filter (·.name ∉ t.keyNames)

theorem Valid.nonKeyColumns_eq (h : t.Valid) : t.nonKeyColumns = t.outerColumns := by
  refine List.filter_congr fun c hc => ?_
  have hiff := h.isKey_iff hc
  by_cases hkey : c.name ∈ t.keyNames
  · simp [hkey, hiff.mpr hkey]
  · simp [hkey, Bool.eq_false_iff.mpr (mt hiff.mp hkey)]

/-- The key columns and the columns outside of the key are all columns, each once. -/
theorem WellKeyed.perm_columns (h : t.WellKeyed) :
    (t.keyColumns ++ t.outerColumns).Perm t.columns := by
  have hkeys : t.keyColumns.Nodup := List.Nodup.of_map _ (h.names_keyColumns ▸ h.keys)
  have hcolumns : t.columns.Nodup := h.columns.of_map
  refine (List.perm_ext_iff_of_nodup ?_ hcolumns).mpr fun c => ?_
  · refine List.nodup_append.mpr ⟨hkeys, hcolumns.filter _, ?_⟩
    rintro c hkey _ houter rfl
    exact absurd (h.mem_keyColumns_iff.mp hkey).2 (by simpa using (List.mem_filter.mp houter).2)
  · rw [List.mem_append, h.mem_keyColumns_iff, outerColumns, List.mem_filter,
      decide_eq_true_eq, ← and_or_left]
    exact and_iff_left (Classical.em _)

/-- How the key lists of a table divide its columns. -/
structure Divided (t : Table) : Prop where
  partition : t.partitionKeys.map t.lookup = t.partitionColumns.map .ok
  clustering : t.clusteringColumns.map t.lookup = t.clusteringKeyColumns.map .ok
  places : (t.partitionColumns ++ t.clusteringKeyColumns ++ t.nonKeyColumns).Perm t.columns
  key : ∀ c, c ∈ t.columns → (c.isKey = true ↔ c.name ∈ t.keyNames)
  partitionRole : ∀ c, c ∈ t.columns → (c.role = .partitionKey ↔ c.name ∈ t.partitionKeys)
  clusteringRole : ∀ c, c ∈ t.columns → (c.role = .clusteringKey ↔ c.name ∈ t.clusteringColumns)
  owner : ∀ c, c ∈ t.columns → c.keyspace = some t.keyspace ∧ c.table = some t.name

theorem Valid.divided (h : t.Valid) : t.Divided where
  partition := map_lookup fun _ hk => h.wellKeyed.exists_column (List.mem_append_left _ hk)
  clustering := map_lookup fun _ hk => h.wellKeyed.exists_column (List.mem_append_right _ hk)
  places := by
    rw [h.nonKeyColumns_eq]
    exact h.wellKeyed.perm_columns
  key _ hc := h.isKey_iff hc
  partitionRole _ hc := h.role_eq_partitionKey_iff hc
  clusteringRole _ hc := h.role_eq_clusteringKey_iff hc
  owner _ hc := h.column hc

/-! ## Checking a table -/

/-- A table without what is declared for its columns apart from their names and types. -/
def undeclared (t : Table) : Table :=
  { t with
    columns := t.columns.map fun c => { c with role := .regular, keyspace := none, table := none } }

theorem undeclared_bind (t : Table) : t.bind.undeclared = t.undeclared := by
  have h : t.bind.undeclared.columns = t.undeclared.columns := by
    simp only [undeclared, bind, List.map_map]
    rfl
  calc t.bind.undeclared = { t.undeclared with columns := t.bind.undeclared.columns } := rfl
    _ = t.undeclared := by rw [h]

theorem read_eq_valid_iff {value : Value} {raw : Table} (h : readFields value = .valid raw) :
    Table.read value = .valid t ↔ raw.WellKeyed ∧ t = raw.bind := by
  rw [Table.read, h, Checked.andThen, Checked.guarded_eq_valid_iff, Option.map_eq_none_iff,
    fault?_eq_none_iff, eq_comm (a := raw.bind)]

/-- **Checking the keys of a table.** A table with fields of the right kinds is accepted
exactly when its keys are well formed; it is the table that was given, but for what its
columns declare, and its key lists divide its columns. -/
theorem accepted_iff_wellKeyed {value : Value} {raw : Table} (h : readFields value = .valid raw) :
    ((∃ t, Table.read value = .valid t) ↔ raw.WellKeyed) ∧
      ∀ t, Table.read value = .valid t → t.undeclared = raw.undeclared ∧ t.Divided := by
  refine ⟨⟨?_, fun hw => ⟨_, (read_eq_valid_iff h).mpr ⟨hw, rfl⟩⟩⟩, fun t ht => ?_⟩
  · rintro ⟨t, ht⟩
    exact ((read_eq_valid_iff h).mp ht).1
  · obtain ⟨_, rfl⟩ := (read_eq_valid_iff h).mp ht
    exact ⟨undeclared_bind raw, (valid_of_read ht).divided⟩

/-- A table of pages as it is given, with the roles that are declared for two columns. -/
def givenPages (day size : Role) : Value :=
  .ofEntries [("keyspace", .text "site"), ("name", .text "pages"),
    ("columns", .list [
      .ofEntries [("name", .text "hits"), ("type_def", .text "counter")],
      .ofEntries [("name", .text "day"), ("type_def", .text "date"), ("role", .text day.text)],
      .ofEntries [("name", .text "page"), ("type_def", .text "text")],
      .ofEntries [("name", .text "size"), ("type_def", .text "int"), ("role", .text size.text)]]),
    ("partition_keys", .list [.text "page"]), ("clustering_columns", .list [.text "day"]),
    ("clustering_orders", .list [.text " Desc "])]

/-- The fields of the table of pages. -/
def pages (day size : Role) : Table where
  keyspace := "site"
  name := "pages"
  columns := [⟨"hits", "counter", .regular, none, none⟩, ⟨"day", "date", day, none, none⟩,
    ⟨"page", "text", .regular, none, none⟩, ⟨"size", "int", size, none, none⟩]
  partitionKeys := ["page"]
  clusteringColumns := ["day"]
  clusteringOrders := [.desc]
  stats := none
  compactStorage := false

theorem readFields_givenPages (day size : Role) :
    readFields (givenPages day size) = .valid (pages day size) := by
  cases day <;> cases size <;> rfl

theorem read_givenPages (day size : Role) (h : (pages day size).fault? = none) :
    Table.read (givenPages day size) = .valid (pages day size).bind :=
  (read_eq_valid_iff (readFields_givenPages day size)).mpr ⟨(fault?_eq_none_iff _).mp h, rfl⟩

/-- A table is accepted whose key columns were declared as such or not at all, and refused
when a column outside of the key lists was declared as a key column. -/
theorem accepted_iff_wellKeyed_pages :
    readFields (givenPages .clusteringKey .regular) = .valid (pages .clusteringKey .regular) ∧
      (∃ t, Table.read (givenPages .clusteringKey .regular) = .valid t ∧ t.Divided) ∧
      ¬∃ t, Table.read (givenPages .regular .partitionKey) = .valid t := by
  have hgood := accepted_iff_wellKeyed (readFields_givenPages .clusteringKey .regular)
  have hbad := accepted_iff_wellKeyed (readFields_givenPages .regular .partitionKey)
  have hkeyed : (pages .clusteringKey .regular).WellKeyed :=
    (fault?_eq_none_iff _).mp (by decide +kernel)
  have hstray : ¬(pages .regular .partitionKey).WellKeyed := by
    rw [← fault?_eq_none_iff]
    decide +kernel
  obtain ⟨t, ht⟩ := hgood.1.mpr hkeyed
  exact ⟨readFields_givenPages _ _, ⟨t, ht, (hgood.2 t ht).2⟩, mt hbad.1.mp hstray⟩

/-! ## Declared roles -/

/-- The role of the column is settled neither by a key list nor by its type. -/
def IsOpen (t : Table) (c : Column) : Prop := c.name ∉ t.keyNames ∧ c.isCounter = false

instance (t : Table) (c : Column) : Decidable (t.IsOpen c) :=
  inferInstanceAs (Decidable (c.name ∉ t.keyNames ∧ c.isCounter = false))

/-- A column bound to the table. -/
def bound (t : Table) (c : Column) : Column :=
  { c with keyspace := some t.keyspace, table := some t.name, role := t.roleOf c }

theorem columns_bind (t : Table) : t.bind.columns = t.columns.map t.bound := rfl

theorem bound_eq_of_undeclared_eq (h : t.undeclared = u.undeclared) : t.bound = u.bound := by
  simp only [undeclared, mk.injEq] at h
  obtain ⟨hkeyspace, hname, _, hpartition, hclustering, _⟩ := h
  funext c
  simp only [bound, roleOf, hkeyspace, hname, hpartition, hclustering]

/-- Tables that differ in declarations only have columns of the same names and types. -/
theorem forall₂_columns_of_undeclared_eq (h : t.undeclared = u.undeclared) :
    List.Forall₂ (fun c d => c.name = d.name ∧ c.typeText = d.typeText) t.columns u.columns := by
  have hcolumns : t.undeclared.columns = u.undeclared.columns := congrArg columns h
  rw [← List.forall₂_eq_eq_eq, undeclared, undeclared, List.forall₂_map_left_iff,
    List.forall₂_map_right_iff] at hcolumns
  refine hcolumns.imp fun c d hcd => ?_
  obtain ⟨hn, ht, _⟩ := Column.mk.inj hcd
  exact ⟨hn, ht⟩

section Bound

variable {c d : Column} (hn : c.name = d.name) (ht : c.typeText = d.typeText)

include ht in
theorem isCounter_eq_of_typeText_eq : c.isCounter = d.isCounter := by
  rw [Column.isCounter, Column.isCounter, Column.trimmedType, Column.trimmedType, ht]

include hn ht

/-- A settled role does not depend on the declared one. -/
theorem roleOf_eq_of_not_isOpen (h : ¬t.IsOpen c) : t.roleOf c = t.roleOf d := by
  by_cases hk : c.name ∈ t.keyNames
  · by_cases hp : c.name ∈ t.partitionKeys
    · rw [roleOf_of_mem_partitionKeys hp, roleOf_of_mem_partitionKeys (hn ▸ hp)]
    · have hc := (List.mem_append.mp hk).resolve_left hp
      rw [roleOf_of_mem_clusteringColumns hp hc,
        roleOf_of_mem_clusteringColumns (hn ▸ hp) (hn ▸ hc)]
  · have hcounts : c.isCounter = true := by
      by_contra hno
      exact h ⟨hk, Bool.eq_false_iff.mpr hno⟩
    rw [roleOf_of_not_mem_keyNames hk, roleOf_of_not_mem_keyNames (hn ▸ hk),
      ← isCounter_eq_of_typeText_eq ht, if_pos hcounts, if_pos hcounts]

theorem bound_eq_bound_iff :
    t.bound c = t.bound d ↔ (t.IsOpen c → c.role = d.role) := by
  have hrole : t.bound c = t.bound d ↔ t.roleOf c = t.roleOf d := by
    simp only [bound, Column.mk.injEq, hn, ht, true_and, and_true]
  rw [hrole]
  by_cases h : t.IsOpen c
  · rw [roleOf_of_not_mem_keyNames h.1, roleOf_of_not_mem_keyNames (hn ▸ h.1),
      ← isCounter_eq_of_typeText_eq ht, h.2]
    simp [h]
  · exact iff_of_true (roleOf_eq_of_not_isOpen hn ht h) fun ho => absurd ho h

end Bound

/-- Tables that differ in declarations only are bound alike exactly when they declare the
same roles for the columns that are open. -/
theorem bind_eq_bind_iff (h : t.undeclared = u.undeclared) :
    t.bind = u.bind ↔
      List.Forall₂ (fun c d => t.IsOpen c → c.role = d.role) t.columns u.columns := by
  have hbound := bound_eq_of_undeclared_eq h
  have hcolumns : t.bind = u.bind ↔ t.columns.map t.bound = u.columns.map t.bound := by
    constructor
    · intro he
      rw [← columns_bind, he, columns_bind, hbound]
    · intro hc
      calc t.bind
        _ = { t.undeclared with columns := t.columns.map t.bound } := rfl
        _ = { u.undeclared with columns := u.columns.map u.bound } := by rw [h, hc, hbound]
        _ = u.bind := rfl
  rw [hcolumns, ← List.forall₂_eq_eq_eq, List.forall₂_map_left_iff, List.forall₂_map_right_iff]
  have hsame := forall₂_columns_of_undeclared_eq h
  constructor
  · exact hsame.mp fun c d ⟨hn, ht⟩ => (bound_eq_bound_iff hn ht).mp
  · exact hsame.mp fun c d ⟨hn, ht⟩ => (bound_eq_bound_iff hn ht).mpr

/-- **Declared roles.** Two accepted tables that were given with different declarations only
are the same but for the roles of open columns; and they are the same altogether exactly
when every open column was declared with one role in both. -/
theorem declared_roles_iff {value other : Value} {raw given : Table}
    (hraw : readFields value = .valid raw) (hgiven : readFields other = .valid given)
    (hsame : raw.undeclared = given.undeclared) (ht : Table.read value = .valid t)
    (hu : Table.read other = .valid u) :
    t.undeclared = u.undeclared ∧
      List.Forall₂ (fun c d => ¬t.IsOpen c → c = d) t.columns u.columns ∧
      (t = u ↔
        List.Forall₂ (fun c d => raw.IsOpen c → c.role = d.role) raw.columns given.columns) := by
  obtain ⟨-, rfl⟩ := (read_eq_valid_iff hraw).mp ht
  obtain ⟨-, rfl⟩ := (read_eq_valid_iff hgiven).mp hu
  refine ⟨by rw [undeclared_bind, undeclared_bind, hsame], ?_, bind_eq_bind_iff hsame⟩
  rw [columns_bind, columns_bind, ← bound_eq_of_undeclared_eq hsame,
    List.forall₂_map_left_iff, List.forall₂_map_right_iff]
  refine (forall₂_columns_of_undeclared_eq hsame).imp fun c d ⟨hn, ht⟩ hsettled => ?_
  exact (bound_eq_bound_iff hn ht).mpr fun ho => absurd ho hsettled

/-- A role that is declared for a key column does not count. -/
theorem declared_roles_iff_pages :
    Table.read (givenPages .regular .regular) = .valid (pages .regular .regular).bind ∧
      Table.read (givenPages .clusteringKey .regular) =
        .valid (pages .clusteringKey .regular).bind ∧
      (pages .regular .regular).bind = (pages .clusteringKey .regular).bind := by
  have hplain := read_givenPages .regular .regular (by decide +kernel)
  have hdeclared := read_givenPages .clusteringKey .regular (by decide +kernel)
  have hiff := declared_roles_iff (readFields_givenPages _ _) (readFields_givenPages _ _) rfl
    hplain hdeclared
  exact ⟨hplain, hdeclared, hiff.2.2.mpr (by decide +kernel)⟩

/-- A column of whole numbers that was declared to count stays a counter, where the same
table without the declaration has a regular column. -/
theorem declared_counter_kept :
    readFields (givenPages .regular .regular) = .valid (pages .regular .regular) ∧
      readFields (givenPages .regular .counter) = .valid (pages .regular .counter) ∧
      (pages .regular .regular).undeclared = (pages .regular .counter).undeclared ∧
      Table.read (givenPages .regular .regular) = .valid (pages .regular .regular).bind ∧
      Table.read (givenPages .regular .counter) = .valid (pages .regular .counter).bind ∧
      (pages .regular .regular).bind ≠ (pages .regular .counter).bind :=
  ⟨readFields_givenPages _ _, readFields_givenPages _ _, rfl,
    read_givenPages _ _ (by decide +kernel), read_givenPages _ _ (by decide +kernel),
    by decide +kernel⟩

end CqlWorkload.Table
