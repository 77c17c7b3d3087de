import CqlWorkload.Proofs.Checked
import Mathlib.Data.List.Nodup
import Mathlib.Tactic.Basic

/-!
# Valid schemas

A schema is valid when it keeps all rules: what checking a value yields is valid.

**Tables.** The check of a table finds no fault exactly when its keys are well
formed (`fault?_eq_none_iff`).  A valid table is one that has no fault and that
binding its columns leaves as it is; the columns of a table that was checked are
bound already (`bind_bind`).

**Schemas.** A sound schema has valid tables and no name twice, which is what
compiling relies on.  A valid one keeps the rules of keyspaces and user types as
well.
-/

namespace CqlWorkload

/-! ## Repeated names -/

namespace Text

theorem insertName_ne_nil (name : String) (names : List String) : insertName name names ≠ [] := by
  cases names with
  | nil => simp [insertName]
  | cons other rest =>
      rw [insertName]
      split_ifs <;> simp

theorem sortedNames_eq_nil_iff (names : List String) : sortedNames names = [] ↔ names = [] := by
  cases names with
  | nil => simp [sortedNames]
  | cons name rest => simp [sortedNames, insertName_ne_nil]

theorem repeatedNames_eq_nil_iff (names : List String) :
    repeatedNames names = [] ↔ names.Nodup := by
  rw [repeatedNames, sortedNames_eq_nil_iff, List.filter_eq_nil_iff, List.nodup_iff_count_le_one]
  constructor
  · intro h name
    by_cases hm : name ∈ names
    · have := h name hm
      simp only [decide_eq_true_eq] at this
      omega
    · rw [List.count_eq_zero_of_not_mem hm]
      omega
  · intro h name _
    have := h name
    simp only [decide_eq_true_eq]
    omega

end Text

namespace Schema

theorem firstRepeated_eq_none_iff (names : List String) :
    ∀ seen : List String, firstRepeated seen names = none ↔
      names.Nodup ∧ ∀ name, name ∈ names → name ∉ seen := by
  induction names with
  | nil => simp [firstRepeated]
  | cons name rest ih =>
      intro seen
      by_cases h : name ∈ seen
      · simp [firstRepeated, h]
      · simp only [firstRepeated, List.contains_eq_mem, h, decide_false, Bool.false_eq_true,
          if_false, ih, List.nodup_cons, List.mem_cons, not_or]
        constructor
        · rintro ⟨hn, hr⟩
          refine ⟨⟨fun hm => (hr name hm).1 rfl, hn⟩, ?_⟩
          rintro other (rfl | ho)
          · exact h
          · exact (hr other ho).2
        · rintro ⟨⟨hm, hn⟩, hr⟩
          refine ⟨hn, fun other ho => ⟨?_, hr other (Or.inr ho)⟩⟩
          rintro rfl
          exact hm ho

/-- No keyspace, user type or table is declared twice. -/
theorem repeated?_eq_none_iff (s : Schema) :
    s.repeated? = none ↔
      (s.keyspaces.map (·.name)).Nodup ∧ (s.types.map (·.fullName)).Nodup ∧
        (s.tables.map (·.fullName)).Nodup := by
  have hk := firstRepeated_eq_none_iff (s.keyspaces.map (·.name)) []
  have ht := firstRepeated_eq_none_iff (s.types.map (·.fullName)) []
  have hb := firstRepeated_eq_none_iff (s.tables.map (·.fullName)) []
  simp only [List.not_mem_nil, not_false_eq_true, implies_true, and_true] at hk ht hb
  rw [← hk, ← ht, ← hb, repeated?]
  cases firstRepeated [] (s.keyspaces.map (·.name)) with
  | some name => simp
  | none =>
      cases firstRepeated [] (s.types.map (·.fullName)) <;> simp

end Schema

/-! ## Tables -/

namespace Table

structure WellKeyed (t : Table) : Prop where
  columns : (t.columns.map (·.name)).Nodup
  partitioned : t.partitionKeys ≠ []
  keys : t.keyNames.Nodup
  declared : ∀ key, key ∈ t.keyNames → key ∈ t.columns.map (·.name)
  orders : t.clusteringOrders.length ≤ t.clusteringColumns.length
  roles : ∀ c, c ∈ t.columns → c.isKey = true → c.name ∈ t.keyNames

theorem fault?_eq_none_iff (t : Table) : t.fault? = none ↔ t.WellKeyed := by
  have hc := Text.repeatedNames_eq_nil_iff (t.columns.map (·.name))
  have hk := Text.repeatedNames_eq_nil_iff t.keyNames
  unfold fault?
  constructor
  · intro h
    dsimp only at h
    split at h
    · cases h
    next h1 =>
    split at h
    · cases h
    next h2 =>
    split at h
    · cases h
    next h3 =>
    split at h
    · cases h
    next hd =>
    split at h
    · cases h
    next h4 =>
    rw [Option.map_eq_none_iff, List.find?_eq_none] at h
    rw [List.find?_eq_none] at hd
    refine ⟨hc.mp (not_not.mp h1), h2, hk.mp (not_not.mp h3), ?_, by omega, ?_⟩
    · intro key hm
      simpa using hd key hm
    · intro c hm hr
      simpa [hr] using h c hm
  · intro h
    dsimp only
    rw [if_neg (not_not.mpr (hc.mpr h.columns)), if_neg h.partitioned,
      if_neg (not_not.mpr (hk.mpr h.keys))]
    have hd : t.keyNames.find? (!(t.columns.map (·.name)).contains ·) = none := by
      rw [List.find?_eq_none]
      intro key hm
      simpa using h.declared key hm
    rw [hd]
    dsimp only
    rw [if_neg (Nat.not_lt.mpr h.orders), Option.map_eq_none_iff, List.find?_eq_none]
    intro c hm
    by_cases hr : c.isKey = true
    · simpa [hr] using h.roles c hm hr
    · simp [hr]

@[simp] theorem keyNames_bind (t : Table) : t.bind.keyNames = t.keyNames := rfl

@[simp] theorem names_bind (t : Table) :
    t.bind.columns.map (·.name) = t.columns.map (·.name) := by
  simp [bind, Function.comp_def]

/-- A role that the key lists and the type have settled is settled the same way again. -/
theorem roleOf_bind (t : Table) (c : Column) (keyspace table : Option String) :
    t.bind.roleOf { c with keyspace := keyspace, table := table, role := t.roleOf c } =
      t.roleOf c := by
  have hc : ({ c with keyspace := keyspace, table := table, role := t.roleOf c } :
      Column).isCounter = c.isCounter := rfl
  have hp : t.bind.partitionKeys = t.partitionKeys := rfl
  have hk : t.bind.clusteringColumns = t.clusteringColumns := rfl
  rw [roleOf, hc, hp, hk]
  simp only [roleOf]
  split_ifs <;> rfl

theorem bind_bind (t : Table) : t.bind.bind = t.bind := by
  have h : t.bind.bind.columns = t.bind.columns := by
    show t.bind.columns.map _ = _
    rw [show t.bind.columns = t.columns.map fun c =>
      { c with keyspace := some t.keyspace, table := some t.name, role := t.roleOf c } from rfl,
      List.map_map]
    refine List.map_congr_left fun c _ => ?_
    simp only [Function.comp_apply, roleOf_bind]
    rfl
  calc t.bind.bind = { t.bind with columns := t.bind.bind.columns } := rfl
    _ = t.bind := by rw [h]

/-- Binding the columns of a table leaves no key role outside of the key lists. -/
theorem wellKeyed_bind {t : Table} (h : t.WellKeyed) : t.bind.WellKeyed where
  columns := by rw [names_bind]; exact h.columns
  partitioned := h.partitioned
  keys := h.keys
  declared := by rw [names_bind]; exact h.declared
  orders := h.orders
  roles := by
    intro c hc hr
    obtain ⟨raw, hm, rfl⟩ := List.mem_map.mp hc
    simp only [Column.isKey, roleOf] at hr
    rw [keyNames_bind, keyNames, List.mem_append]
    split_ifs at hr with hp hk hn
    · exact Or.inl (List.contains_iff_mem.mp hp)
    · exact Or.inr (List.contains_iff_mem.mp hk)
    · simp [Role.isKey] at hr
    · exact List.mem_append.mp (h.roles raw hm hr)

/-- A table that checking accepts and leaves as it is. -/
structure Valid (t : Table) : Prop where
  faultless : t.fault? = none
  bound : t.bind = t

instance (t : Table) : Decidable t.Valid :=
  decidable_of_iff (t.fault? = none ∧ t.bind = t) ⟨fun h => ⟨h.1, h.2⟩, fun h => ⟨h.1, h.2⟩⟩

theorem Valid.wellKeyed {t : Table} (h : t.Valid) : t.WellKeyed :=
  (fault?_eq_none_iff t).mp h.faultless

theorem valid_bind {t : Table} (h : t.fault? = none) : t.bind.Valid where
  faultless := (fault?_eq_none_iff _).mpr (wellKeyed_bind ((fault?_eq_none_iff t).mp h))
  bound := bind_bind t

/-- The columns of a valid table name the table. -/
theorem Valid.column {t : Table} (h : t.Valid) {c : Column} (hc : c ∈ t.columns) :
    c.keyspace = some t.keyspace ∧ c.table = some t.name := by
  rw [← h.bound] at hc
  obtain ⟨raw, _, rfl⟩ := List.mem_map.mp hc
  exact ⟨rfl, rfl⟩

end Table

/-! ## Schemas -/

namespace Schema

/-- A schema whose tables are valid and that declares nothing twice. -/
structure Sound (s : Schema) : Prop where
  tables : ∀ t, t ∈ s.tables → t.Valid
  distinct : s.repeated? = none

/-- A schema that keeps all rules. -/
structure Valid (s : Schema) : Prop extends s.Sound where
  keyspaces : ∀ k, k ∈ s.keyspaces → k.isReplicated = true
  types : ∀ t, t ∈ s.types → t.fields ≠ []

instance (s : Schema) : Decidable s.Sound :=
  decidable_of_iff ((∀ t, t ∈ s.tables → t.Valid) ∧ s.repeated? = none)
    ⟨fun h => ⟨h.1, h.2⟩, fun h => ⟨h.1, h.2⟩⟩

instance (s : Schema) : Decidable s.Valid :=
  decidable_of_iff (s.Sound ∧ (∀ k, k ∈ s.keyspaces → k.isReplicated = true) ∧
      ∀ t, t ∈ s.types → t.fields ≠ [])
    ⟨fun h => ⟨h.1, h.2.1, h.2.2⟩, fun h => ⟨h.1, h.2, h.3⟩⟩

end Schema

/-! ## Accepted schemas -/

open Checked

theorem Keyspace.isReplicated_of_read {value : Value} {k : Keyspace}
    (h : Keyspace.read value = .valid k) : k.isReplicated = true := by
  obtain ⟨found, _, hg⟩ := andThen_eq_valid h
  obtain ⟨hr, rfl⟩ := guarded_eq_valid hg
  by_contra hn
  simp [hn] at hr

theorem UserType.fields_of_read {value : Value} {t : UserType}
    (h : UserType.read value = .valid t) : t.fields ≠ [] := by
  obtain ⟨found, _, hg⟩ := andThen_eq_valid h
  obtain ⟨hr, rfl⟩ := guarded_eq_valid hg
  intro hn
  simp [hn] at hr

theorem Table.valid_of_read {value : Value} {t : Table} (h : Table.read value = .valid t) :
    t.Valid := by
  obtain ⟨raw, _, hg⟩ := andThen_eq_valid h
  obtain ⟨hr, rfl⟩ := guarded_eq_valid hg
  exact valid_bind (Option.map_eq_none_iff.mp hr)

/-- **Checking a value yields a valid schema.** -/
theorem Schema.valid_of_read {value : Value} {s : Schema} (h : Schema.read value = .valid s) :
    s.Valid := by
  obtain ⟨found, hf, hg⟩ := andThen_eq_valid h
  obtain ⟨hr, rfl⟩ := guarded_eq_valid hg
  obtain ⟨entries, he⟩ := record_eq_valid hf
  obtain ⟨f, tables, hft, htables, rfl⟩ := seq_eq_valid he
  obtain ⟨g, types, hgt, htypes, rfl⟩ := seq_eq_valid hft
  obtain ⟨keyspaces, hkeyspaces, rfl⟩ := map_eq_valid hgt
  refine ⟨⟨?_, Option.map_eq_none_iff.mp hr⟩, ?_, ?_⟩
  · intro t ht
    rcases fieldOr_eq_valid htables with rfl | ⟨value, hv⟩
    · cases ht
    · obtain ⟨item, hi⟩ := list_eq_valid hv ht
      exact Table.valid_of_read hi
  · intro k hk
    rcases fieldOr_eq_valid hkeyspaces with rfl | ⟨value, hv⟩
    · cases hk
    · obtain ⟨item, hi⟩ := list_eq_valid hv hk
      exact Keyspace.isReplicated_of_read hi
  · intro t ht
    rcases fieldOr_eq_valid htypes with rfl | ⟨value, hv⟩
    · cases ht
    · obtain ⟨item, hi⟩ := list_eq_valid hv ht
      exact UserType.fields_of_read hi

end CqlWorkload
