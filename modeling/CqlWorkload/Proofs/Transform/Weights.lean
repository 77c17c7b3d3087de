import CqlWorkload.Proofs.Entries
import CqlWorkload.Proofs.Schema.RoundTrip
import CqlWorkload.Proofs.Transform.Pipeline

/-!
# Weights of tables

The weights of a table are drawn from its counts and from the counts of all tables.
Putting them in place changes no count, so drawing them again gives the same weights.

**Results.**
* `applyRatios_settled`: nothing but the two weights of tables with statistics changes,
  and weighing the weighed schema changes nothing at all.
* `compile_ratiosTwice`: a configuration that asks for the weights twice in a row
  compiles to what it compiles to when it asks for them once.

**Names.** Counts may be kept under the qualified names of their tables, since a valid
schema declares no table twice (`weigh_countsByName`).
-/

namespace CqlWorkload

/-! ## Statistics beside the weights -/

namespace Statistic

def isWeight (name : String) : Bool := name == readsName || name == writesName

/-- The statistics that are no weights, in their order. -/
def besideWeights (stats : Entries Statistic) : Entries Statistic :=
  stats.filter fun entry => !isWeight entry.1

theorem besideWeights_put {name : String} (h : isWeight name = true) (value : Statistic)
    (stats : Entries Statistic) : besideWeights (stats.put name value) = besideWeights stats := by
  unfold besideWeights
  induction stats with
  | nil => simp [Entries.put, h]
  | cons entry rest ih =>
      obtain ⟨key, old⟩ := entry
      by_cases hk : key = name
      · subst hk
        simp [Entries.put, h]
      · simp only [Entries.put, hk, if_false, List.filter_cons, ih]

/-- The weights of a table put in place. -/
def weighed (stats : Entries Statistic) (reads writes : Double) : Entries Statistic :=
  (stats.put readsName (.float reads)).put writesName (.float writes)

variable (stats : Entries Statistic) (reads writes : Double)

theorem besideWeights_weighed :
    besideWeights (weighed stats reads writes) = besideWeights stats := by
  rw [weighed, besideWeights_put (by decide), besideWeights_put (by decide)]

theorem get?_weighed_reads : (weighed stats reads writes).get? readsName = some (.float reads) := by
  rw [weighed, Entries.get?_put_of_ne _ (by decide), Entries.get?_put_self]

theorem get?_weighed_writes :
    (weighed stats reads writes).get? writesName = some (.float writes) := by
  rw [weighed, Entries.get?_put_self]

/-- A statistic that is no weight is found as before. -/
theorem get?_weighed {name : String} (h : isWeight name = false) :
    (weighed stats reads writes).get? name = stats.get? name := by
  simp only [isWeight, Bool.or_eq_false_iff, beq_eq_false_iff_ne] at h
  rw [weighed, Entries.get?_put_of_ne _ h.2, Entries.get?_put_of_ne _ h.1]

/-- Weights that are in place already are put where they are. -/
theorem weighed_weighed :
    weighed (weighed stats reads writes) reads writes = weighed stats reads writes := by
  have hreads : (weighed stats reads writes).put readsName (.float reads) =
      weighed stats reads writes := Entries.put_of_get? (get?_weighed_reads stats reads writes)
  rw [weighed, hreads, Entries.put_of_get? (get?_weighed_writes stats reads writes)]

theorem weighed_ne_nil : weighed stats reads writes ≠ [] := by
  intro h
  have hreads := get?_weighed_reads stats reads writes
  rw [h] at hreads
  cases hreads

end Statistic

/-! ## One table -/

namespace Table

/-- What a table and the same table with its weights have in common. -/
structure Reweighed (t made : Table) : Prop where
  rest : made = { t with stats := made.stats }
  unmeasured : t.hasStats = false → made = t
  measured : t.hasStats = true → ∃ stats reads writes, t.stats = some stats ∧
    made.stats = some (Statistic.weighed stats reads writes) ∧
      Statistic.besideWeights (Statistic.weighed stats reads writes) =
        Statistic.besideWeights stats
  /-- The statistics are accepted as they are, every value being kept in its kind. -/
  accepted : Checked.optional readStats ((made.stats.map Statistic.tableToValue).getD .null) =
    .valid made.stats

theorem stats_eq_some {t : Table} (h : t.hasStats = true) : t.stats = some t.statistics := by
  unfold hasStats at h
  split at h
  · cases h
  next stats hs => rw [statistics, hs, Option.getD_some]

end Table

namespace Transformer

open Statistic

/-- The counts of a table with statistics are numbers, and no other table has any. -/
theorem countsOf_eq_ok {t : Table} {counts : Option (Double × Double)}
    (h : countsOf t = .ok counts) :
    (t.hasStats = false ∧ counts = none) ∨ (t.hasStats = true ∧ ∃ reads writes,
      counts = some (reads, writes) ∧
        numeric t.statistics readCountName t.fullName = .ok reads ∧
        numeric t.statistics writeCountName t.fullName = .ok writes) := by
  unfold countsOf at h
  split at h
  next hstats =>
    split at h
    · cases h
    next reads hreads =>
      split at h
      · cases h
      next writes hwrites =>
        cases h
        exact Or.inr ⟨hstats, reads, writes, rfl, hreads, hwrites⟩
  next hstats =>
    cases h
    exact Or.inl ⟨Bool.eq_false_iff.mpr hstats, rfl⟩

theorem weigh_some (total : Double) {t : Table} (reads writes : Double) :
    weigh total (t, some (reads, writes)) =
      { t with stats := some (weighed t.statistics (share total reads) (share total writes)) } :=
  rfl

theorem reweighed_weigh (total : Double) {t : Table} {counts : Option (Double × Double)}
    (h : countsOf t = .ok counts) : t.Reweighed (weigh total (t, counts)) := by
  rcases countsOf_eq_ok h with ⟨hstats, rfl⟩ | ⟨hstats, reads, writes, rfl, -, -⟩
  · exact ⟨rfl, fun _ => rfl, fun hs => by simp [hs] at hstats,
      (Table.standsFor_stats t.stats).accepted⟩
  · rw [weigh_some]
    refine ⟨rfl, fun hs => by simp [hs] at hstats, fun _ => ?_, ?_⟩
    · exact ⟨t.statistics, _, _, Table.stats_eq_some hstats, rfl, besideWeights_weighed _ _ _⟩
    · exact (Table.standsFor_stats _).accepted

theorem numeric_weighed {stats : Entries Statistic} {name owner : String} {x : Double}
    (reads writes : Double) (hname : isWeight name = false)
    (h : numeric stats name owner = .ok x) :
    numeric (weighed stats reads writes) name owner = .ok x := by
  unfold numeric at h ⊢
  rw [get?_weighed _ _ _ hname]
  cases hs : stats.get? name with
  | none =>
      rw [hs] at h
      cases h
  | some statistic =>
      rw [hs] at h
      exact h

/-- **The weights of a table are not counted.** -/
theorem countsOf_weigh (total : Double) {t : Table} {counts : Option (Double × Double)}
    (h : countsOf t = .ok counts) : countsOf (weigh total (t, counts)) = .ok counts := by
  rcases countsOf_eq_ok h with ⟨-, rfl⟩ | ⟨-, reads, writes, rfl, hreads, hwrites⟩
  · exact h
  · have hstats : (weigh total (t, some (reads, writes))).hasStats = true := by
      simp [weigh_some, Table.hasStats, weighed_ne_nil]
    have hr : numeric (weigh total (t, some (reads, writes))).statistics readCountName
        t.fullName = .ok reads := numeric_weighed _ _ (by decide) hreads
    have hw : numeric (weigh total (t, some (reads, writes))).statistics writeCountName
        t.fullName = .ok writes := numeric_weighed _ _ (by decide) hwrites
    have hname : (weigh total (t, some (reads, writes))).fullName = t.fullName := rfl
    rw [countsOf, if_pos hstats, hname, hr, hw]

theorem weigh_weigh (total : Double) (t : Table) (counts : Option (Double × Double)) :
    weigh total (weigh total (t, counts), counts) = weigh total (t, counts) := by
  cases counts with
  | none => rfl
  | some counts =>
      obtain ⟨reads, writes⟩ := counts
      rw [weigh_some, weigh_some]
      simp only [Table.statistics, Option.getD_some, weighed_weighed]

/-! ## All tables -/

variable {s made : Schema} {entries : List (Table × Option (Double × Double))}

theorem withCounts_eq_ok_iff {tables : List Table} :
    withCounts tables = .ok entries ↔
      List.Forall₂ (fun t entry => entry.1 = t ∧ countsOf t = .ok entry.2) tables entries := by
  induction tables generalizing entries with
  | nil => simp [withCounts, eq_comm]
  | cons t rest ih =>
      simp only [withCounts, List.forall₂_cons_left_iff]
      constructor
      · intro h
        split at h
        · cases h
        next counts hcounts =>
          split at h
          · cases h
          next others hothers =>
            cases h
            exact ⟨(t, counts), others, ⟨rfl, hcounts⟩, ih.mp hothers, rfl⟩
      · rintro ⟨⟨_, counts⟩, others, ⟨rfl, hcounts⟩, hothers, rfl⟩
        simp only [hcounts, ih.mpr hothers]

/-- The counts of all tables, added up. -/
def grandTotal (entries : List (Table × Option (Double × Double))) : Double :=
  total (entries.filterMap (·.2))

theorem applyRatios_eq_ok_iff : (applyRatios s).1 = .ok made ↔
    ∃ entries, withCounts s.tables = .ok entries ∧
      made = { s with tables := entries.map (weigh (grandTotal entries)) } := by
  unfold applyRatios
  cases withCounts s.tables with
  | error failure => simp
  | ok entries => simp [grandTotal, eq_comm]

theorem countsOf_of_mem {tables : List Table} (h : withCounts tables = .ok entries)
    {entry : Table × Option (Double × Double)} (he : entry ∈ entries) :
    countsOf entry.1 = .ok entry.2 := by
  have hcounted := withCounts_eq_ok_iff.mp h
  clear h
  induction hcounted with
  | nil => cases he
  | cons hfirst _ ih =>
      rcases List.mem_cons.mp he with rfl | he
      · exact hfirst.1 ▸ hfirst.2
      · exact ih he

/-- Weighed tables have the counts that they were weighed by. -/
theorem withCounts_weigh (sum : Double)
    (h : ∀ entry ∈ entries, countsOf entry.1 = .ok entry.2) :
    withCounts (entries.map (weigh sum)) =
      .ok (entries.map fun entry => (weigh sum entry, entry.2)) := by
  rw [withCounts_eq_ok_iff, List.forall₂_map_left_iff, List.forall₂_map_right_iff,
    List.forall₂_same]
  exact fun entry he => ⟨rfl, countsOf_weigh sum (h entry he)⟩

/-- **Weighing a weighed schema changes nothing.** -/
theorem applyRatios_again (h : (applyRatios s).1 = .ok made) : (applyRatios made).1 = .ok made := by
  obtain ⟨entries, hentries, rfl⟩ := applyRatios_eq_ok_iff.mp h
  have hcounts := withCounts_weigh (grandTotal entries) fun _ he => countsOf_of_mem hentries he
  have htotal : grandTotal (entries.map fun entry => (weigh (grandTotal entries) entry, entry.2)) =
      grandTotal entries := by
    simp only [grandTotal, List.filterMap_map, Function.comp_def]
  refine applyRatios_eq_ok_iff.mpr ⟨_, hcounts, ?_⟩
  rw [htotal, List.map_map]
  congr 1
  exact List.map_congr_left fun entry _ => (weigh_weigh _ entry.1 entry.2).symm

theorem reweighed_tables (h : (applyRatios s).1 = .ok made) :
    List.Forall₂ Table.Reweighed s.tables made.tables := by
  obtain ⟨entries, hentries, rfl⟩ := applyRatios_eq_ok_iff.mp h
  rw [List.forall₂_map_right_iff]
  refine (withCounts_eq_ok_iff.mp hentries).imp ?_
  rintro t ⟨_, counts⟩ ⟨rfl, hcounts⟩
  exact reweighed_weigh _ hcounts

/-! ## Counts by name -/

/-- The counts of tables under their qualified names. -/
def countsByName (entries : List (Table × Option (Double × Double))) :
    Entries (Double × Double) :=
  Entries.putAll [] (entries.filterMap fun entry => entry.2.map ((entry.1.fullName, ·)))

theorem nodup_names_counts (hn : (entries.map (·.1.fullName)).Nodup) :
    (Entries.keys (entries.filterMap fun entry =>
      entry.2.map ((entry.1.fullName, ·)))).Nodup := by
  refine hn.sublist ?_
  clear hn
  induction entries with
  | nil => exact List.Sublist.refl _
  | cons entry rest ih =>
      obtain ⟨t, counts⟩ := entry
      cases counts with
      | none => exact ih.cons _
      | some counts => exact ih.cons_cons _

theorem countsByName_eq (hn : (entries.map (·.1.fullName)).Nodup) :
    countsByName entries = entries.filterMap fun entry => entry.2.map ((entry.1.fullName, ·)) :=
  Entries.putAll_eq_append _ (nodup_names_counts hn)

theorem values_countsByName (hn : (entries.map (·.1.fullName)).Nodup) :
    (countsByName entries).map (·.2) = entries.filterMap (·.2) := by
  rw [countsByName_eq hn, List.map_filterMap]
  refine List.filterMap_congr fun entry _ => ?_
  cases entry.2 <;> rfl

/-- Tables of different names have their own counts under their names. -/
theorem get?_countsByName (hn : (entries.map (·.1.fullName)).Nodup)
    {entry : Table × Option (Double × Double)} (he : entry ∈ entries) :
    (countsByName entries).get? entry.1.fullName = entry.2 := by
  rw [countsByName_eq hn]
  obtain ⟨t, counts⟩ := entry
  cases counts with
  | some counts =>
      exact Entries.get?_of_mem (nodup_names_counts hn) (List.mem_filterMap.mpr ⟨_, he, rfl⟩)
  | none =>
      refine (Entries.get?_eq_none_iff _ _).mpr fun hmem => ?_
      obtain ⟨_, hfound, hname⟩ := List.mem_map.mp hmem
      obtain ⟨⟨other, _ | counts⟩, hother, hsome⟩ := List.mem_filterMap.mp hfound
      · cases hsome
      cases hsome
      have heq := List.inj_on_of_nodup_map hn hother he hname
      cases heq

/-- In a valid schema every table is weighed by the counts under its name. -/
theorem weigh_countsByName (hs : s.Sound) (h : withCounts s.tables = .ok entries) :
    entries.map (weigh (grandTotal entries)) = s.tables.map fun t =>
      weigh (total ((countsByName entries).map (·.2))) (t, (countsByName entries).get? t.fullName) := by
  have hfst := map_fst_withCounts h
  have hn : (entries.map (·.1.fullName)).Nodup := by
    have hnames := ((Schema.repeated?_eq_none_iff s).mp hs.distinct).2.2
    rwa [← hfst, List.map_map] at hnames
  rw [values_countsByName hn, ← hfst, List.map_map]
  refine List.map_congr_left fun entry he => ?_
  rw [Function.comp_apply, get?_countsByName hn he]
  rfl

/-! ## Asking for the weights twice -/

theorem apply_ratiosTwice (s : Schema) :
    ((ratios.apply s).1 >>= fun made => (ratios.apply made).1) = (ratios.apply s).1 := by
  cases happly : (ratios.apply s).1 with
  | error failure => rfl
  | ok made => exact applyRatios_again happly

/-- Transformers that ask for the weights twice in a row make what they make when they
ask for them once. -/
theorem applyAll_ratiosTwice (before after : List Transformer) (s : Schema) :
    (applyAll (before ++ ratios :: ratios :: after) s).1 =
      (applyAll (before ++ ratios :: after) s).1 := by
  simp only [applyAll_append, applyAll_cons, ← bind_assoc, apply_ratiosTwice]

theorem eq_ratios_of_get {spec : TransformerSpec} {transformer : Transformer}
    (hname : spec.name = "ratio_calculator")
    (h : Catalog.builtIn.get spec.name spec.settings = .ok transformer) :
    transformer = ratios := by
  have hget : Catalog.builtIn.get spec.name spec.settings =
      (Catalog.build .ratios spec.settings).mapError (.ofMisfit "ratio_calculator") := by
    rw [hname]
    rfl
  rw [hget, Catalog.build] at h
  split at h <;> cases h
  rfl

/-- What the transformers of a list make that names the weights twice in a row. -/
theorem getAll_ratiosTwice {spec : TransformerSpec} (hname : spec.name = "ratio_calculator")
    (before after : List TransformerSpec) (s : Schema) :
    (Catalog.builtIn.getAll (before ++ spec :: spec :: after) >>= fun transformers =>
        (applyAll transformers s).1) =
      (Catalog.builtIn.getAll (before ++ spec :: after) >>= fun transformers =>
        (applyAll transformers s).1) := by
  simp only [Catalog.getAll_append, Catalog.getAll_cons, bind_assoc]
  cases Catalog.builtIn.getAll before with
  | error failure => rfl
  | ok first =>
      cases hget : Catalog.builtIn.get spec.name spec.settings with
      | error failure => rfl
      | ok transformer =>
          cases eq_ratios_of_get hname hget
          cases Catalog.builtIn.getAll after with
          | error failure => rfl
          | ok rest => exact applyAll_ratiosTwice first rest s

end Transformer

/-- A list that names the weights twice in a row compiles to what it compiles to when it
names them once. -/
theorem Workload.compile_ratiosTwice (s : Schema) (c : Config) {spec : TransformerSpec}
    (hname : spec.name = "ratio_calculator") (before after : List TransformerSpec) :
    (Workload.compile s (c.listing (before ++ spec :: spec :: after))).1 =
      (Workload.compile s (c.listing (before ++ spec :: after))).1 := by
  have hmade := Transformer.getAll_ratiosTwice hname before after s
  simp only [compile_listing, ← bind_assoc]
  rw [hmade]

/-- **Weighing is settled after once.** Of a valid schema it changes nothing but the two
weights of the tables with statistics, each table by the counts under its own name; what
it makes it leaves as it is; and asking for it twice in a row compiles to the same. -/
theorem Transformer.applyRatios_settled {s made : Schema} (hs : s.Valid)
    (h : (ratios.apply s).1 = .ok made) :
    made.keyspaces = s.keyspaces ∧ made.types = s.types ∧
      List.Forall₂ Table.Reweighed s.tables made.tables ∧
      (∃ entries, withCounts s.tables = .ok entries ∧ made.tables = s.tables.map fun t =>
        weigh (total ((countsByName entries).map (·.2)))
          (t, (countsByName entries).get? t.fullName)) ∧
      (ratios.apply made).1 = .ok made ∧
      ∀ (c : Config) (before after : List TransformerSpec) (spec : TransformerSpec),
        spec.name = "ratio_calculator" →
          (Workload.compile s (c.listing (before ++ spec :: spec :: after))).1 =
            (Workload.compile s (c.listing (before ++ spec :: after))).1 := by
  have htables := reweighed_tables h
  have hagain := applyRatios_again h
  obtain ⟨entries, hentries, rfl⟩ := applyRatios_eq_ok_iff.mp h
  refine ⟨rfl, rfl, htables, ⟨entries, hentries, ?_⟩, hagain, ?_⟩
  · exact weigh_countsByName hs.toSound hentries
  · exact fun c before after _ hname => Workload.compile_ratiosTwice s c hname before after

/-- Tables with and without counts, the weights of one being out of date. -/
def Schema.counted : Schema where
  keyspaces := []
  types := []
  tables := [
    { keyspace := "shop"
      name := "orders"
      columns := [⟨"id", "int", .partitionKey, some "shop", some "orders"⟩]
      partitionKeys := ["id"]
      clusteringColumns := []
      clusteringOrders := []
      stats := some [("weighted_writes", .text "1"), ("Local read count", .int 30),
        ("Local write count", .text "1,000")]
      compactStorage := false },
    { keyspace := "shop"
      name := "users"
      columns := [⟨"id", "int", .partitionKey, some "shop", some "users"⟩]
      partitionKeys := ["id"]
      clusteringColumns := []
      clusteringOrders := []
      stats := none
      compactStorage := false }]

theorem Transformer.applyRatios_settled_counted :
    Schema.counted.Valid ∧ ∃ made, (ratios.apply .counted).1 = .ok made ∧
      made ≠ .counted ∧ (ratios.apply made).1 = .ok made := by
  have hs : Schema.counted.Valid := by decide +kernel
  have hchanged : ((ratios.apply .counted).1.toOption.any fun made => made ≠ .counted) = true := by
    decide +kernel
  cases h : (ratios.apply .counted).1 with
  | error failure => simp [h, Except.toOption] at hchanged
  | ok made =>
      refine ⟨hs, made, rfl, ?_, (applyRatios_settled hs h).2.2.2.2.1⟩
      simpa [h, Except.toOption] using hchanged

end CqlWorkload
