import CqlWorkload.Proofs.Statistic.Order
import CqlWorkload.Proofs.Workload.Placeholders

/-!
# Moduli in recipes

The stage that keeps a partition key below the number of partitions names a modulus.  It
is the number of partitions, scaled and rounded to two leading digits, and so it is
positive (`exists_scaled_of_mem_needs`).

**Long literals.** The modulus is written as a literal of a signed integer of 64 bits.
Nothing bounds the number of partitions, nor the multiplier that it is scaled by, so the
literal need not exist.  It does exactly as long as the scaled number is rounded down to
the largest modulus of two digits that such an integer can have
(`quantize_le_largestLong_iff`).
-/

namespace CqlWorkload

/-! ## Long literals -/

namespace Modulus

/-- The largest signed integer of 64 bits. -/
def largestLong : Nat := 2 ^ 63 - 1

theorem quantize_le_largestLong_iff {scaled : Nat} (h : 0 < scaled) :
    quantize scaled 1 ≤ largestLong ↔ scaled < 9250000000000000000 := by
  have hlow : quantize 9249999999999999999 1 = 9200000000000000000 := rfl
  have hhigh : quantize 9250000000000000000 1 = 9300000000000000000 := rfl
  have hbetween : 9200000000000000000 ≤ largestLong ∧ largestLong < 9300000000000000000 := by
    decide
  constructor
  · intro hle
    by_contra hnot
    have hmono := quantize_mono 1 (by decide) (Nat.not_lt.mp hnot)
    omega
  · intro hlt
    have hmono := quantize_mono 1 h (Nat.le_of_lt_succ hlt)
    omega

end Modulus

/-! ## Moduli of needs -/

/-- A modulus of a table is its scaled number of partitions, rounded. -/
theorem Table.modulus?_eq_some_iff {t : Table} {multiplier : Double} {n : Nat} :
    t.modulus? multiplier = some n ↔ t.hasStats = true ∧ ∃ scaled : Nat,
      t.partitionModulo multiplier = .ok scaled ∧ 0 < scaled ∧ n = Modulus.quantize scaled 1 := by
  unfold modulus?
  cases t.partitionModulo multiplier with
  | error failure => simp
  | ok modulo =>
      by_cases hstats : t.hasStats = true
      · by_cases hpos : 0 < modulo
        · obtain ⟨scaled, rfl⟩ := Int.eq_ofNat_of_zero_le (Int.le_of_lt hpos)
          have hscaled : 0 < scaled := Int.natCast_pos.mp hpos
          simp [hstats, hscaled, eq_comm]
        · have hnone : ∀ scaled : Nat, modulo = scaled → ¬0 < scaled := by omega
          simp only [hstats, hpos, decide_false, Bool.and_false, Bool.false_eq_true, if_false,
            reduceCtorEq, true_and, false_iff, not_exists, Except.ok.injEq]
          exact fun scaled h => hnone scaled h.1 h.2.1
      · simp [hstats]

/-- Only inserts need a modulus: that of their table, for the last column of its partition
key. -/
theorem Task.modulus?_of_mem_needs {task : Task} {multiplier : Double} {need : Need} {n : Nat}
    (hn : need ∈ task.needs multiplier) (hm : need.modulus = some n) :
    ∃ t, task.element = .table t ∧ need.column ∈ t.columns ∧
      t.isLastPartitionKey need.column = true ∧ t.modulus? multiplier = some n := by
  cases task with
  | insert t =>
      obtain ⟨c, hc, rfl⟩ := List.mem_map.mp hn
      rw [Table.insertNeed] at hm
      split at hm
      next hlast => exact ⟨t, rfl, hc, hlast, hm⟩
      next => cases hm
  | select t | scan t | update t =>
      obtain ⟨c, _, rfl⟩ := List.mem_map.mp hn
      cases hm
  | _ => cases hn

/-- A number of partitions of some table, scaled, from which the modulus of a need comes. -/
structure Need.Scales (s : Schema) (multiplier : Double) (need : Need) (scaled : Nat) : Prop where
  table : ∃ t, t ∈ s.tables ∧ need.column ∈ t.columns ∧
    t.isLastPartitionKey need.column = true ∧ t.hasStats = true ∧
    t.partitionModulo multiplier = .ok scaled
  positive : 0 < scaled
  rounded : need.modulus = some (Modulus.quantize scaled 1)

theorem Config.exists_scales {c : Config} {s : Schema} {need : Need} {n : Nat}
    (hn : need ∈ c.needs s) (hm : need.modulus = some n) :
    ∃ scaled, need.Scales s c.partitionMultiplier scaled := by
  obtain ⟨planned, _, hn⟩ := List.mem_flatMap.mp hn
  obtain ⟨task, htask, hn⟩ := List.mem_flatMap.mp hn
  obtain ⟨component, htask⟩ := Config.mem_tasks htask
  obtain ⟨t, ht, hcolumn, hlast, hmodulus⟩ := Task.modulus?_of_mem_needs hn hm
  obtain ⟨hstats, scaled, hscaled, hpos, rfl⟩ := Table.modulus?_eq_some_iff.mp hmodulus
  exact ⟨scaled, ⟨t, Schema.Sound.mem_tables_of_mem_tasks htask ht, hcolumn, hlast, hstats,
    hscaled⟩, hpos, hm⟩

/-! ## Moduli of a document -/

/-- **Moduli.** Every modulus in the first stage of a recipe is positive, and it is a signed
integer of 64 bits exactly when the scaled number of partitions that it was rounded from
is below a bound. -/
theorem Exporter.moduli_long_iff {s : Schema} {c : Config} {transformers : List Transformer}
    {e : Exporter} {w : Workload} (hs : s.Valid)
    (he : (Exporter.ofTransformers s c transformers).1 = .ok e) (hw : e.workload.1 = .ok w) :
    ∃ bound : Need → Binding,
      w.CarriesOut e.schema c (fun _ _ task entry =>
        entry.2.statement = (task.statement c.partitionMultiplier bound).render) ∧
      ∀ need, need ∈ c.needs e.schema → ∀ n, need.modulus = some n →
        (∃ recipe, Binding.recipe? c.libraries need.column.trimmedType = some recipe ∧
          w.bindings.get? (bound need).name =
            some ("Mod(" ++ FloatLayout.digitsText n ++ "L); " ++ recipe)) ∧
        1 ≤ n ∧ ∃ scaled, need.Scales e.schema c.partitionMultiplier scaled ∧
          (n ≤ Modulus.largestLong ↔ scaled < 9250000000000000000) := by
  obtain ⟨hsound, rfl⟩ := Exporter.sound_ofTransformers hs.toSound he
  obtain ⟨ctx, last, h⟩ := Workload.generate_eq_ok hsound hw
  refine ⟨Binding.boundIn ctx.libraries last.bindings, ?_, fun need hn n hm => ⟨?_, ?_⟩⟩
  · refine h.carriesOut.imp ?_
    rintro planned block ⟨hname, hops⟩
    exact ⟨hname, hops.imp fun task entry hentered => h.config ▸ hentered.statement⟩
  · rw [h.libraries]
    obtain ⟨hr, hg⟩ := h.get?_boundIn hsound hn
    obtain ⟨recipe, hrecipe, hstage⟩ := Option.map_eq_some_iff.mp hr
    refine ⟨recipe, hrecipe, ?_⟩
    rw [hg, ← hstage, Need.stage, hm]
  · obtain ⟨scaled, hscales⟩ := Config.exists_scales hn hm
    obtain rfl : n = Modulus.quantize scaled 1 :=
      Option.some.inj (hm.symm.trans hscales.rounded)
    exact ⟨Modulus.quantize_pos 1, scaled, hscales,
      Modulus.quantize_le_largestLong_iff hscales.positive⟩

/-! ## An example -/

/-- The orders, with more partitions than a signed integer of 64 bits can count. -/
def Schema.crowded : Schema where
  keyspaces := []
  types := []
  tables := [{
    keyspace := "shop"
    name := "orders"
    columns := [⟨"id", "int", .partitionKey, some "shop", some "orders"⟩]
    partitionKeys := ["id"]
    clusteringColumns := []
    clusteringOrders := []
    stats := some [("weighted_writes", .int 1),
      ("Number of partitions (estimate)", .int 10000000000000000000)]
    compactStorage := false }]

theorem Schema.valid_crowded : Schema.crowded.Valid := by decide +kernel

/-- A configuration with one block of writes. -/
def Config.writes : Config :=
  { Config.readsAndWrites with blockplan := [("main", [.insert])] }

/-- The need of an insert into the orders. -/
def Need.crowded : Need :=
  ⟨⟨"id", "int", .partitionKey, some "shop", some "orders"⟩, some 10000000000000000000⟩

theorem Config.needs_crowded : Config.writes.needs .crowded = [.crowded] := by
  decide +kernel

theorem Exporter.exists_workload_crowded :
    ∃ w, (Exporter.mk .crowded .writes).workload.1 = .ok w ∧
      w.bindings = [("shop__orders__id__10000000000000000000",
        "Mod(10000000000000000000L); Hash(); ToInt()")] := by
  have hfound : (Exporter.mk .crowded .writes).workload.1.toOption.any
      (fun w => w.bindings == [("shop__orders__id__10000000000000000000",
        "Mod(10000000000000000000L); Hash(); ToInt()")]) = true := by decide +kernel
  obtain ⟨w, hw, hb⟩ := exists_workload hfound
  exact ⟨w, hw, eq_of_beq hb⟩

theorem Exporter.moduli_long_iff_crowded :
    Schema.crowded.Valid ∧ Need.crowded ∈ Config.writes.needs .crowded ∧
      ∃ w, (Exporter.mk .crowded .writes).workload.1 = .ok w ∧
      ∃ scaled, Need.crowded.Scales .crowded (.ofInt 1) scaled ∧
        (10000000000000000000 ≤ Modulus.largestLong ↔ scaled < 9250000000000000000) := by
  have hn : Need.crowded ∈ Config.writes.needs .crowded := by simp [Config.needs_crowded]
  obtain ⟨w, hw, _⟩ := Exporter.exists_workload_crowded
  obtain ⟨_, _, hall⟩ :=
    Exporter.moduli_long_iff Schema.valid_crowded (Exporter.ofTransformers_nil ..) hw
  obtain ⟨_, _, hscaled⟩ := hall .crowded hn _ rfl
  exact ⟨Schema.valid_crowded, hn, w, hw, hscaled⟩

/-- A compile that returns a workload may write a modulus that is no signed integer of 64
bits. -/
theorem Exporter.modulus_beyond_long :
    Schema.crowded.Valid ∧ Config.writes.Valid ∧
      ∃ w, (Exporter.mk .crowded .writes).workload.1 = .ok w ∧
      ∃ need n, need ∈ Config.writes.needs .crowded ∧ need.modulus = some n ∧
        w.bindings.get? "shop__orders__id__10000000000000000000" =
          some ("Mod(" ++ FloatLayout.digitsText n ++ "L); Hash(); ToInt()") ∧
        ¬(1 ≤ n ∧ n ≤ Modulus.largestLong) := by
  have hc : Config.writes.Valid := by decide +kernel
  have hn : Need.crowded ∈ Config.writes.needs .crowded := by simp [Config.needs_crowded]
  obtain ⟨w, hw, hb⟩ := Exporter.exists_workload_crowded
  refine ⟨Schema.valid_crowded, hc, w, hw, .crowded, 10000000000000000000, hn, rfl, ?_, by decide⟩
  rw [hb]
  rfl

end CqlWorkload
