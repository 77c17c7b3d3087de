import CqlWorkload.Proofs.Checked
import CqlWorkload.Proofs.Json.Storable
import CqlWorkload.Proofs.Schema.Validity
import CqlWorkload.Schema.Document

/-!
# Saved schemas

Checking the value of an accepted schema gives the schema again, with all roles
and orders as they were (`Schema.read_toValue`).  The text of a schema is read
as the schema exactly when its value is storable (`Schema.ofFileText_fileText`).
-/

namespace CqlWorkload

open Checked Json

/-! ## Values that come back -/

/-- Whatever comes back in place of the value is the value. -/
def Kept (v : Value) : Prop := ∀ depth w, reread savedDouble depth v = some w → w = v

theorem kept_of_reread {v : Value} (h : ∀ depth, reread savedDouble depth v = some v) : Kept v := by
  intro depth w hw
  rw [h depth] at hw
  exact (Option.some.inj hw).symm

theorem kept_text (s : String) : Kept (.text s) := kept_of_reread fun _ => rfl

theorem kept_bool (b : Bool) : Kept (.bool b) := kept_of_reread fun _ => rfl

theorem kept_optionalText (s : Option String) : Kept (optionalText s) := by
  cases s <;> exact kept_of_reread fun _ => rfl

/-- What comes back one by one is `found`, if `h` tells it item by item. -/
theorem eq_of_forall₂ {α β : Type} {f : α → β} {R : α → β → Prop} {items : List α} {found : List β}
    (h : ∀ a ∈ items, ∀ b, R a b → b = f a) (hr : List.Forall₂ R items found) :
    found = items.map f := by
  induction hr with
  | nil => rfl
  | cons hab _ ih =>
      rw [List.map_cons, h _ (by simp) _ hab, ih fun a ha => h a (List.mem_cons_of_mem _ ha)]

theorem kept_list {items : List Value} (h : ∀ v ∈ items, Kept v) : Kept (.list items) := by
  intro depth w hw
  obtain ⟨found, below, rfl, hf⟩ := reread_list_eq_some hw
  rw [eq_of_forall₂ (f := id) (fun v hv => h v hv below) hf, List.map_id]

theorem kept_textList (texts : List String) : Kept (textList texts) := by
  refine kept_list fun v hv => ?_
  obtain ⟨s, -, rfl⟩ := List.mem_map.mp hv
  exact kept_text s

/-- The fields of a record come back one by one. -/
theorem reread_ofEntries {double : Double → Value} {depth : Nat} {fields : List (String × Value)}
    {w : Value} (hn : (fields.map Prod.fst).Nodup)
    (h : reread double depth (.ofEntries fields) = some w) :
    ∃ below found, w = .ofEntries found ∧
      List.Forall₂ (fun e f => f.1 = e.1 ∧ reread double below e.2 = some f.2) fields found := by
  obtain ⟨found, below, rfl, -, hf⟩ := reread_map_eq_some h
  replace hf := hf (Value.keyed_ofNames hn)
  rw [List.forall₂_map_left_iff] at hf
  suffices hnamed : ∃ named : List (String × Value),
      found = named.map (fun entry => (.text entry.1, entry.2)) ∧
        List.Forall₂ (fun e f => f.1 = e.1 ∧ reread double below e.2 = some f.2) fields named by
    obtain ⟨named, rfl, hall⟩ := hnamed
    exact ⟨below, named, rfl, hall⟩
  clear h hn
  induction hf with
  | nil => exact ⟨[], rfl, .nil⟩
  | @cons e f _ _ hef _ ih =>
      obtain ⟨named, rfl, hall⟩ := ih
      have hf : f = (.text e.1, f.2) := Prod.ext hef.1 rfl
      exact ⟨(e.1, f.2) :: named, by rw [List.map_cons, ← hf], .cons ⟨rfl, hef.2⟩ hall⟩

theorem kept_ofEntries {fields : List (String × Value)} (hn : (fields.map Prod.fst).Nodup)
    (h : ∀ e ∈ fields, Kept e.2) : Kept (.ofEntries fields) := by
  intro depth w hw
  obtain ⟨below, found, rfl, hf⟩ := reread_ofEntries hn hw
  rw [eq_of_forall₂ (f := id) (fun e he f hef => Prod.ext hef.1 (h e he below f.2 hef.2)) hf,
    List.map_id]

/-! ## Values that stand for something -/

/-- A value that stands for `a`: checking it gives `a`, and of the values that may
come back in its place no other one does. -/
structure StandsFor {α : Type} (check : Value → Checked α) (v : Value) (a : α) : Prop where
  accepted : check v = .valid a
  only : ∀ depth w, reread savedDouble depth v = some w → check w = .valid a → w = v

namespace StandsFor

variable {α : Type}

theorem of_kept {check : Value → Checked α} {v : Value} {a : α} (h : check v = .valid a)
    (hv : Kept v) : StandsFor check v a :=
  ⟨h, fun depth w hw _ => hv depth w hw⟩

theorem eq_of_forall₂_forall₂ {β : Type} {f : α → β} {R : α → β → Prop} {S : β → α → Prop}
    {items : List α} {found : List β} (h : ∀ a ∈ items, ∀ b, R a b → S b a → b = f a)
    (hr : List.Forall₂ R items found) (hs : List.Forall₂ S found items) :
    found = items.map f := by
  induction hr with
  | nil => rfl
  | cons hab _ ih =>
      obtain ⟨hba, hs⟩ := List.forall₂_cons.mp hs
      rw [List.map_cons, h _ (by simp) _ hab hba,
        ih (fun a ha => h a (List.mem_cons_of_mem _ ha)) hs]

/-- A list of values stands for a list of what they stand for. -/
theorem list {check : Value → Checked α} {toValue : α → Value} {items : List α}
    (h : ∀ a ∈ items, StandsFor check (toValue a) a) :
    StandsFor (Checked.list check) (.list (items.map toValue)) items where
  accepted := by
    rw [list_eq_valid_iff, List.forall₂_map_left_iff, List.forall₂_same]
    exact fun a ha => (h a ha).accepted
  only depth w hw hread := by
    obtain ⟨found, below, rfl, hf⟩ := reread_list_eq_some hw
    rw [List.forall₂_map_left_iff] at hf
    rw [list_eq_valid_iff] at hread
    rw [eq_of_forall₂_forall₂ (fun a ha w => (h a ha).only below w) hf hread]

theorem keys_eq_of_forall₂ {check : Value → Checked α} {found : List (Value × Value)}
    {entries : List (String × α)}
    (h : List.Forall₂ (fun e f => e.1 = .text f.1 ∧ check e.2 = .valid f.2) found entries) :
    found.map Prod.fst = entries.map fun e => .text e.1 := by
  induction h with
  | nil => rfl
  | cons he _ ih => rw [List.map_cons, List.map_cons, he.1, ih]

/-- A mapping from names stands for the entries with what its values stand for. -/
theorem mapping {check : Value → Checked α} {toValue : α → Value} {entries : List (String × α)}
    (h : ∀ e ∈ entries, StandsFor check (toValue e.2) e.2) :
    StandsFor (Checked.mapping check)
      (.ofEntries (entries.map fun e => (e.1, toValue e.2))) entries where
  accepted := by
    rw [Value.ofEntries, mapping_eq_valid_iff, List.map_map, List.forall₂_map_left_iff,
      List.forall₂_same]
    exact fun e he => ⟨rfl, (h e he).accepted⟩
  only depth w hw hread := by
    rw [Value.ofEntries, List.map_map] at hw ⊢
    obtain ⟨found, below, rfl, hkeyed, hf⟩ := reread_map_eq_some hw
    rw [mapping_eq_valid_iff] at hread
    -- the keys that came back are the names of the entries, so these differ as well
    have hf := hf ((Value.keyed_congr (by
      rw [keys_eq_of_forall₂ hread, List.map_map]
      rfl)).mp hkeyed)
    rw [List.forall₂_map_left_iff] at hf
    refine congrArg Value.map (eq_of_forall₂_forall₂ (fun e he f hef hfe => ?_) hf hread)
    exact Prod.ext hef.1 ((h e he).only below f.2 hef.2 hfe.2)

end StandsFor

/-! ## Records -/

section Records

attribute [local simp] Value.ofEntries record field fieldOr Value.lookup inField
  andThen_eq_valid_iff guarded_eq_valid_iff seq_eq_valid_iff map_eq_valid_iff under_eq_valid_iff

theorem Keyspace.read_ofEntries {name replication durable : Value} {k : Keyspace} :
    Keyspace.read (.ofEntries [("name", name), ("replication", replication),
        ("durable_writes", durable)]) = .valid k ↔
      text name = .valid k.name ∧ readReplication replication = .valid k.replication ∧
        truth durable = .valid k.durableWrites ∧ k.isReplicated = true := by
  obtain ⟨_, _, durable⟩ := k
  cases durable <;> simp [Keyspace.read, and_assoc]

theorem UserType.read_ofEntries {keyspace name fields : Value} {t : UserType} :
    UserType.read (.ofEntries [("keyspace", keyspace), ("name", name), ("fields", fields)]) =
        .valid t ↔
      text keyspace = .valid t.keyspace ∧ text name = .valid t.name ∧
        mapping text fields = .valid t.fields ∧ t.fields ≠ [] := by
  obtain ⟨_, _, _⟩ := t
  simp [UserType.read, and_assoc]

theorem Column.read_ofEntries {name type role keyspace table : Value} {c : Column} :
    Column.read (.ofEntries [("name", name), ("type_def", type), ("role", role),
        ("keyspace", keyspace), ("table", table)]) = .valid c ↔
      text name = .valid c.name ∧ text type = .valid c.typeText ∧
        among (Role.all.map (·.text)) Role.ofText? role = .valid c.role ∧
        optional text keyspace = .valid c.keyspace ∧ optional text table = .valid c.table := by
  obtain ⟨_, _, _, _, _⟩ := c
  simp [Column.read, and_assoc]

theorem Table.readStats_ofEntries {attributes : Value} {stats : Entries Statistic} :
    Table.readStats (.ofEntries [("attributes", attributes)]) = .valid stats ↔
      mapping Statistic.read attributes = .valid stats := by
  simp [Table.readStats]

theorem Table.readFields_ofEntries
    {keyspace name columns partition clustering orders stats compact : Value} {t : Table} :
    Table.readFields (.ofEntries [("keyspace", keyspace), ("name", name), ("columns", columns),
        ("partition_keys", partition), ("clustering_columns", clustering),
        ("clustering_orders", orders), ("stats", stats), ("compact_storage", compact)]) =
          .valid t ↔
      text keyspace = .valid t.keyspace ∧ text name = .valid t.name ∧
        list Column.read columns = .valid t.columns ∧ list text partition = .valid t.partitionKeys ∧
        list text clustering = .valid t.clusteringColumns ∧
        readOrders orders = .valid t.clusteringOrders ∧
        optional readStats stats = .valid t.stats ∧ truth compact = .valid t.compactStorage := by
  obtain ⟨_, _, _, _, _, _, _, compact⟩ := t
  cases compact <;> simp [Table.readFields, and_assoc]

theorem Schema.read_ofEntries {keyspaces types tables : Value} {s : Schema} :
    Schema.read (.ofEntries [("keyspaces", keyspaces), ("types", types), ("tables", tables)]) =
        .valid s ↔
      list Keyspace.read keyspaces = .valid s.keyspaces ∧ list UserType.read types = .valid s.types ∧
        list Table.read tables = .valid s.tables ∧ s.repeated? = none := by
  obtain ⟨_, _, _⟩ := s
  simp [Schema.read, and_assoc]

end Records

/-! ## Parts of a schema -/

/-- A replication that is accepted is accepted as it is. -/
theorem Keyspace.eq_of_readReplication {value r : Value} (h : readReplication value = .valid r) :
    value = r := by
  unfold readReplication at h
  split at h
  · injection h
  · split at h
    · next entries hm =>
      injection h with h
      subst h
      cases value with
      | map found =>
          rw [mapping_eq_valid_iff] at hm
          rw [Value.ofEntries]
          congr 1
          induction hm with
          | nil => rfl
          | cons he _ ih =>
              obtain ⟨hkey, hvalue⟩ := he
              injection hvalue with hvalue
              rw [List.map_cons, ← ih (by simp), ← hkey, ← hvalue]
      | _ => cases hm
    · cases h

theorem Keyspace.standsFor {k : Keyspace} (hr : k.isReplicated = true)
    (hp : readReplication k.replication = .valid k.replication) :
    StandsFor Keyspace.read k.toValue k where
  accepted := Keyspace.read_ofEntries.mpr ⟨rfl, hp, rfl, hr⟩
  only depth w hw hread := by
    obtain ⟨below, found, rfl, hf⟩ := reread_ofEntries (by simp) hw
    simp only [List.forall₂_cons_left_iff, List.forall₂_nil_left_iff] at hf
    obtain ⟨⟨_, name⟩, _, ⟨rfl, hname⟩, ⟨⟨_, replication⟩, _, ⟨rfl, _⟩,
      ⟨⟨_, durable⟩, _, ⟨rfl, hdurable⟩, rfl, rfl⟩, rfl⟩, rfl⟩ := hf
    have hreplication := Keyspace.eq_of_readReplication (Keyspace.read_ofEntries.mp hread).2.1
    have hname : name = .text k.name := kept_text _ _ _ hname
    have hdurable : durable = .bool k.durableWrites := kept_bool _ _ _ hdurable
    rw [hname, hreplication, hdurable]
    rfl

theorem UserType.standsFor_fields (fields : Entries String) :
    StandsFor (mapping text) (.ofEntries (fields.map fun field => (field.1, .text field.2))) fields :=
  StandsFor.mapping fun e _ => StandsFor.of_kept rfl (kept_text e.2)

theorem UserType.standsFor {t : UserType} (h : t.fields ≠ []) :
    StandsFor UserType.read t.toValue t where
  accepted := UserType.read_ofEntries.mpr
    ⟨rfl, rfl, (UserType.standsFor_fields t.fields).accepted, h⟩
  only depth w hw hread := by
    obtain ⟨below, found, rfl, hf⟩ := reread_ofEntries (by simp) hw
    simp only [List.forall₂_cons_left_iff, List.forall₂_nil_left_iff] at hf
    obtain ⟨⟨_, keyspace⟩, _, ⟨rfl, hkeyspace⟩, ⟨⟨_, name⟩, _, ⟨rfl, hname⟩,
      ⟨⟨_, fields⟩, _, ⟨rfl, hfields⟩, rfl, rfl⟩, rfl⟩, rfl⟩ := hf
    have hkeyspace : keyspace = .text t.keyspace := kept_text _ _ _ hkeyspace
    have hname : name = .text t.name := kept_text _ _ _ hname
    have hfields := (UserType.standsFor_fields t.fields).only below fields hfields
      (UserType.read_ofEntries.mp hread).2.2.1
    rw [hkeyspace, hname, hfields]
    rfl

theorem Column.read_toValue (c : Column) : Column.read c.toValue = .valid c := by
  refine Column.read_ofEntries.mpr ⟨rfl, rfl, ?_, ?_, ?_⟩
  · cases c.role <;> rfl
  · cases c.keyspace <;> rfl
  · cases c.table <;> rfl

theorem Column.kept (c : Column) : Kept c.toValue := by
  refine kept_ofEntries (by simp) fun e he => ?_
  simp only [List.mem_cons, List.not_mem_nil, or_false] at he
  rcases he with rfl | rfl | rfl | rfl | rfl
  · exact kept_text _
  · exact kept_text _
  · exact kept_text _
  · exact kept_optionalText _
  · exact kept_optionalText _

/-- A statistic is told from the null that stands for one that is not finite. -/
theorem Statistic.standsFor (s : Statistic) : StandsFor Statistic.read s.toValue s where
  accepted := by cases s <;> rfl
  only depth w hw hread := by
    cases s with
    | float x =>
        simp only [toValue, reread, savedDouble, Option.some.injEq] at hw
        split_ifs at hw with hx
        · exact hw.symm
        · subst hw
          cases hread
    | int n =>
        simp only [toValue, reread] at hw
        split_ifs at hw
        injection hw with hw
        exact hw.symm
    | text s => exact kept_text s depth w hw

theorem Statistic.standsFor_attributes (stats : Entries Statistic) :
    StandsFor (mapping Statistic.read)
      (.ofEntries (stats.map fun entry => (entry.1, entry.2.toValue))) stats :=
  StandsFor.mapping fun e _ => Statistic.standsFor e.2

theorem Table.standsFor_stats (stats : Option (Entries Statistic)) :
    StandsFor (optional readStats) ((stats.map Statistic.tableToValue).getD .null) stats := by
  cases stats with
  | none => exact StandsFor.of_kept rfl (kept_of_reread fun _ => rfl)
  | some stats =>
      have haccepted : readStats (Statistic.tableToValue stats) = .valid stats :=
        Table.readStats_ofEntries.mpr (Statistic.standsFor_attributes stats).accepted
      refine ⟨?_, fun depth w hw hread => ?_⟩
      · show some <$> readStats (Statistic.tableToValue stats) = _
        rw [haccepted]
        rfl
      · obtain ⟨below, found, rfl, hf⟩ := reread_ofEntries (by simp) hw
        simp only [List.forall₂_cons_left_iff, List.forall₂_nil_left_iff] at hf
        obtain ⟨⟨_, attributes⟩, _, ⟨rfl, hattributes⟩, rfl, rfl⟩ := hf
        obtain ⟨again, hagain, hsome⟩ := map_eq_valid hread
        rw [Option.some.inj hsome] at hagain
        rw [(Statistic.standsFor_attributes stats).only below attributes hattributes
          (Table.readStats_ofEntries.mp hagain)]
        rfl

theorem Table.read_textList (texts : List String) : list text (textList texts) = .valid texts := by
  rw [textList, list_eq_valid_iff, List.forall₂_map_left_iff, List.forall₂_same]
  exact fun _ _ => rfl

theorem Table.readOrder_text (o : Order) : readOrder (.text o.text) = .valid o := by
  cases o <;> rfl

/-- The texts of clustering orders have no digits to be too many. -/
theorem Table.readOrders_textList (orders : List Order) :
    readOrders (textList (orders.map (·.text))) = .valid orders := by
  have hwritable : Value.itemsWritable ((orders.map (·.text)).map .text) = true := by
    induction orders with
    | nil => rfl
    | cons o rest ih => exact ih
  rw [textList, readOrders, if_pos hwritable, List.map_map, list_eq_valid_iff,
    List.forall₂_map_left_iff, List.forall₂_same]
  exact fun o _ => readOrder_text o

theorem Table.readFields_toValue (t : Table) : readFields t.toValue = .valid t := by
  refine Table.readFields_ofEntries.mpr ⟨rfl, rfl, ?_, Table.read_textList _,
    Table.read_textList _, Table.readOrders_textList _,
    (Table.standsFor_stats t.stats).accepted, rfl⟩
  rw [list_eq_valid_iff, List.forall₂_map_left_iff, List.forall₂_same]
  exact fun c _ => c.read_toValue

theorem Table.standsFor {t : Table} (h : t.Valid) : StandsFor Table.read t.toValue t where
  accepted := by
    rw [Table.read, readFields_toValue, andThen, h.faultless, Option.map_none, guarded, h.bound]
  only depth w hw hread := by
    obtain ⟨raw, hraw, hguarded⟩ := andThen_eq_valid hread
    obtain ⟨-, hbind⟩ := guarded_eq_valid hguarded
    have hstats : raw.stats = t.stats := by rw [← hbind]; rfl
    obtain ⟨below, found, rfl, hf⟩ := reread_ofEntries (by simp) hw
    simp only [List.forall₂_cons_left_iff, List.forall₂_nil_left_iff] at hf
    obtain ⟨⟨_, keyspace⟩, _, ⟨rfl, hkeyspace⟩, ⟨⟨_, name⟩, _, ⟨rfl, hname⟩,
      ⟨⟨_, columns⟩, _, ⟨rfl, hcolumns⟩, ⟨⟨_, partition⟩, _, ⟨rfl, hpartition⟩,
      ⟨⟨_, clustering⟩, _, ⟨rfl, hclustering⟩, ⟨⟨_, orders⟩, _, ⟨rfl, horders⟩,
      ⟨⟨_, stats⟩, _, ⟨rfl, hstats'⟩, ⟨⟨_, compact⟩, _, ⟨rfl, hcompact⟩,
      rfl, rfl⟩, rfl⟩, rfl⟩, rfl⟩, rfl⟩, rfl⟩, rfl⟩, rfl⟩ := hf
    have hkeyspace : keyspace = .text t.keyspace := kept_text _ _ _ hkeyspace
    have hname : name = .text t.name := kept_text _ _ _ hname
    have hcolumns := kept_list (fun v hv => by
      obtain ⟨c, -, rfl⟩ := List.mem_map.mp hv
      exact c.kept) _ _ hcolumns
    have hpartition := kept_textList _ _ _ hpartition
    have hclustering := kept_textList _ _ _ hclustering
    have horders := kept_textList _ _ _ horders
    have hcompact : compact = .bool t.compactStorage := kept_bool _ _ _ hcompact
    have hread : optional readStats stats = .valid t.stats :=
      hstats ▸ (Table.readFields_ofEntries.mp hraw).2.2.2.2.2.2.1
    have hstats := (standsFor_stats t.stats).only below stats hstats' hread
    dsimp only at hcolumns hpartition hclustering horders
    rw [hkeyspace, hname, hcolumns, hpartition, hclustering, horders, hstats, hcompact]
    rfl

/-! ## Whole schemas -/

theorem Keyspace.readReplication_of_read {value : Value} {k : Keyspace}
    (h : Keyspace.read value = .valid k) :
    readReplication k.replication = .valid k.replication := by
  obtain ⟨found, hf, hg⟩ := andThen_eq_valid h
  obtain ⟨-, rfl⟩ := guarded_eq_valid hg
  obtain ⟨entries, he⟩ := record_eq_valid hf
  obtain ⟨f, durable, hfirst, -, rfl⟩ := seq_eq_valid he
  obtain ⟨g, replication, hname, hr, rfl⟩ := seq_eq_valid hfirst
  obtain ⟨name, -, rfl⟩ := map_eq_valid hname
  rcases fieldOr_eq_valid hr with rfl | ⟨given, hgiven⟩
  · rfl
  · rwa [Keyspace.eq_of_readReplication hgiven] at hgiven

theorem Schema.readReplication_of_read {value : Value} {s : Schema}
    (h : Schema.read value = .valid s) {k : Keyspace} (hk : k ∈ s.keyspaces) :
    Keyspace.readReplication k.replication = .valid k.replication := by
  obtain ⟨found, hf, hg⟩ := andThen_eq_valid h
  obtain ⟨-, rfl⟩ := guarded_eq_valid hg
  obtain ⟨entries, he⟩ := record_eq_valid hf
  obtain ⟨f, tables, hfirst, -, rfl⟩ := seq_eq_valid he
  obtain ⟨g, types, hk', -, rfl⟩ := seq_eq_valid hfirst
  obtain ⟨keyspaces, hkeyspaces, rfl⟩ := map_eq_valid hk'
  rcases fieldOr_eq_valid hkeyspaces with rfl | ⟨value, hv⟩
  · cases hk
  · obtain ⟨item, hi⟩ := list_eq_valid hv hk
    exact Keyspace.readReplication_of_read hi

/-- The value of an accepted schema stands for it. -/
theorem Schema.standsFor {value : Value} {s : Schema} (h : Schema.read value = .valid s) :
    StandsFor Schema.read s.toValue s := by
  have hvalid := Schema.valid_of_read h
  have hkeyspaces : StandsFor (list Keyspace.read) (.list (s.keyspaces.map Keyspace.toValue))
      s.keyspaces :=
    StandsFor.list fun k hk =>
      Keyspace.standsFor (hvalid.keyspaces k hk) (Schema.readReplication_of_read h hk)
  have htypes : StandsFor (list UserType.read) (.list (s.types.map UserType.toValue)) s.types :=
    StandsFor.list fun t ht => UserType.standsFor (hvalid.types t ht)
  have htables : StandsFor (list Table.read) (.list (s.tables.map Table.toValue)) s.tables :=
    StandsFor.list fun t ht => Table.standsFor (hvalid.tables t ht)
  refine ⟨Schema.read_ofEntries.mpr ⟨hkeyspaces.accepted, htypes.accepted, htables.accepted,
    hvalid.distinct⟩, fun depth w hw hread => ?_⟩
  obtain ⟨below, found, rfl, hf⟩ := reread_ofEntries (by simp) hw
  simp only [List.forall₂_cons_left_iff, List.forall₂_nil_left_iff] at hf
  obtain ⟨⟨_, keyspaces⟩, _, ⟨rfl, hk⟩, ⟨⟨_, types⟩, _, ⟨rfl, ht⟩,
    ⟨⟨_, tables⟩, _, ⟨rfl, hb⟩, rfl, rfl⟩, rfl⟩, rfl⟩ := hf
  obtain ⟨hk', ht', hb', -⟩ := Schema.read_ofEntries.mp hread
  have hk := hkeyspaces.only below keyspaces hk hk'
  have ht := htypes.only below types ht ht'
  have hb := htables.only below tables hb hb'
  rw [hk, ht, hb]
  rfl

end CqlWorkload
