import CqlWorkload.Proofs.Schema.Validity
import CqlWorkload.Workload.Exporter

/-!
# Transformers keep schemas sound

A transformer takes elements away, or it changes what is known of them beside
their names and keys, and it declares nothing new.  So what transformers make of
a sound schema is sound.

**Replication.** A transformed schema need not be valid: the replication of a
keyspace may be replaced by a value that says nothing.
-/

namespace CqlWorkload

/-! ## Statistics -/

namespace Table

/-- Statistics take no part in what makes a table valid. -/
theorem Valid.withStats {t : Table} (h : t.Valid) (stats : Option (Entries Statistic)) :
    Valid { t with stats := stats } where
  faultless := h.faultless
  bound := by
    have hb : t.bind.columns = t.columns := congrArg Table.columns h.bound
    show { t with columns := t.bind.columns, stats := stats } = _
    rw [hb]

end Table

namespace Transformer

theorem weigh_eq (total : Double) (entry : Table × Option (Double × Double)) :
    ∃ stats, weigh total entry = { entry.1 with stats := stats } := by
  obtain ⟨t, counts⟩ := entry
  cases counts with
  | none => exact ⟨t.stats, rfl⟩
  | some counts => exact ⟨_, rfl⟩

theorem map_fst_withCounts {tables : List Table}
    {entries : List (Table × Option (Double × Double))}
    (h : withCounts tables = .ok entries) : entries.map (·.1) = tables := by
  induction tables generalizing entries with
  | nil =>
      cases h
      rfl
  | cons t rest ih =>
      unfold withCounts at h
      split at h
      · cases h
      · split at h
        · cases h
        next hrest =>
          cases h
          rw [List.map_cons, ih hrest]

/-! ## Replication -/

theorem name_overrideOne {value : Value} {k replaced : Keyspace}
    (h : (overrideOne value k).1 = .ok replaced) : replaced.name = k.name := by
  unfold overrideOne at h
  split at h <;> cases h
  rfl

theorem names_overrideAll {value : Value} {listed : Option Value}
    {keyspaces replaced : List Keyspace}
    (h : (overrideAll value listed keyspaces).1 = .ok replaced) :
    replaced.map (·.name) = keyspaces.map (·.name) := by
  induction keyspaces generalizing replaced with
  | nil =>
      cases h
      rfl
  | cons k rest ih =>
      unfold overrideAll at h
      split at h
      · cases h
      next chosen _ =>
        split at h
        · cases h
        next first log hfirst =>
          have hname : first.name = k.name := by
            split at hfirst
            · exact name_overrideOne (congrArg Prod.fst hfirst)
            · cases hfirst
              rfl
          split at h
          · cases h
          next others more hothers =>
            cases h
            rw [List.map_cons, List.map_cons, hname, ih (congrArg Prod.fst hothers)]

/-! ## Transformers -/

variable {s made : Schema}

theorem sound_keep (h : s.Sound) (select : String → Bool) : (keep select s).Sound where
  tables := fun t ht => h.tables t (List.mem_filter.mp ht).1
  distinct := by
    obtain ⟨hk, ht, hb⟩ := (Schema.repeated?_eq_none_iff s).mp h.distinct
    refine (Schema.repeated?_eq_none_iff _).mpr ⟨?_, ?_, ?_⟩
    · exact hk.sublist (List.filter_sublist.map _)
    · exact ht.sublist (List.filter_sublist.map _)
    · exact hb.sublist (List.filter_sublist.map _)

theorem sound_applyReplication {value : Value} {listed : Option Value} (h : s.Sound)
    (ha : (applyReplication value listed s).1 = .ok made) : made.Sound := by
  unfold applyReplication at ha
  rcases ho : overrideAll value listed s.keyspaces with ⟨found, log⟩
  rw [ho] at ha
  cases found with
  | error failure => cases ha
  | ok replaced =>
      cases ha
      refine ⟨h.tables, ?_⟩
      have hnames := names_overrideAll (congrArg Prod.fst ho)
      rw [Schema.repeated?_eq_none_iff, hnames]
      exact (Schema.repeated?_eq_none_iff s).mp h.distinct

theorem sound_applyRatios (h : s.Sound) (ha : (applyRatios s).1 = .ok made) : made.Sound := by
  unfold applyRatios at ha
  split at ha
  · cases ha
  next entries hentries =>
    cases ha
    have hfst := map_fst_withCounts hentries
    constructor
    · intro t ht
      obtain ⟨entry, hm, rfl⟩ := List.mem_map.mp ht
      obtain ⟨stats, hs⟩ := weigh_eq (total (entries.filterMap (·.2))) entry
      have htable : entry.1 ∈ s.tables := hfst ▸ List.mem_map.mpr ⟨entry, hm, rfl⟩
      rw [hs]
      exact (h.tables _ htable).withStats stats
    · have hnames : (entries.map (weigh (total (entries.filterMap (·.2))))).map (·.fullName) =
          s.tables.map (·.fullName) := by
        rw [← hfst, List.map_map, List.map_map]
        refine List.map_congr_left fun entry _ => ?_
        obtain ⟨stats, hs⟩ := weigh_eq (total (entries.filterMap (·.2))) entry
        simp only [Function.comp_apply, hs]
        rfl
      rw [Schema.repeated?_eq_none_iff, hnames]
      exact (Schema.repeated?_eq_none_iff s).mp h.distinct

theorem sound_apply {transformer : Transformer} (h : s.Sound)
    (ha : (transformer.apply s).1 = .ok made) : made.Sound := by
  cases transformer with
  | keyspaceFilter included excluded =>
      cases ha
      exact sound_keep h _
  | replication value listed => exact sound_applyReplication h ha
  | ratios => exact sound_applyRatios h ha
  | clearing =>
      cases ha
      exact ⟨by simp, rfl⟩

/-- What every transformer preserves is preserved by all of some transformers. -/
theorem preserved_applyAll {p : Schema → Prop}
    (happly : ∀ {transformer s made}, p s → (apply transformer s).1 = .ok made → p made)
    {transformers : List Transformer} (h : p s)
    (ha : (applyAll transformers s).1 = .ok made) : p made := by
  induction transformers generalizing s with
  | nil =>
      cases ha
      exact h
  | cons transformer rest ih =>
      unfold applyAll at ha
      split at ha
      · cases ha
      next next log hnext => exact ih (happly h (congrArg Prod.fst hnext)) ha

/-- **What transformers make of a sound schema is sound.** -/
theorem sound_applyAll {transformers : List Transformer} (h : s.Sound)
    (ha : (applyAll transformers s).1 = .ok made) : made.Sound :=
  preserved_applyAll sound_apply h ha

theorem mem_types_of_apply {transformer : Transformer}
    (ha : (transformer.apply s).1 = .ok made) : ∀ t, t ∈ made.types → t ∈ s.types := by
  cases transformer with
  | keyspaceFilter included excluded =>
      cases ha
      exact fun t ht => (List.mem_filter.mp ht).1
  | replication value listed =>
      rcases ho : overrideAll value listed s.keyspaces with ⟨found, log⟩
      rw [apply, applyReplication, ho] at ha
      cases found <;> cases ha
      exact fun t ht => ht
  | ratios =>
      rw [apply, applyRatios] at ha
      split at ha <;> cases ha
      exact fun t ht => ht
  | clearing =>
      cases ha
      exact fun t ht => by cases ht

/-- Transformers make no user types. -/
theorem mem_types_of_applyAll {transformers : List Transformer}
    (ha : (applyAll transformers s).1 = .ok made) : ∀ t, t ∈ made.types → t ∈ s.types :=
  preserved_applyAll (p := fun made => ∀ t, t ∈ made.types → t ∈ s.types)
    (fun h ha t ht => h t (mem_types_of_apply ha t ht)) (fun _ ht => ht) ha

end Transformer

theorem Exporter.ofTransformers_eq_ok {s : Schema} {c : Config}
    {transformers : List Transformer} {e : Exporter}
    (he : (Exporter.ofTransformers s c transformers).1 = .ok e) :
    (Transformer.applyAll transformers s).1 = .ok e.schema ∧ e.config = c := by
  unfold ofTransformers at he
  rcases ha : Transformer.applyAll transformers s with ⟨found, log⟩
  rw [ha] at he
  cases found with
  | error failure => cases he
  | ok made =>
      cases he
      exact ⟨rfl, rfl⟩

theorem Exporter.sound_ofTransformers {s : Schema} {c : Config}
    {transformers : List Transformer} {e : Exporter} (h : s.Sound)
    (he : (Exporter.ofTransformers s c transformers).1 = .ok e) :
    e.schema.Sound ∧ e.config = c := by
  obtain ⟨ha, hc⟩ := ofTransformers_eq_ok he
  exact ⟨Transformer.sound_applyAll h ha, hc⟩

end CqlWorkload
