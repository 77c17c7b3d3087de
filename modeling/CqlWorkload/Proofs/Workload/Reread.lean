import CqlWorkload.Proofs.Workload.Names
import CqlWorkload.Proofs.Yaml.Reread
import CqlWorkload.Workload.Format

/-!
# Reading written workloads

The YAML text of a workload is read as the workload again, keys in order and statements
letter by letter, exactly if the colon of every simple key is found and every next-line
character is escaped (`Exporter.reread_workload_iff`).

**Documents.** A workload is a document of five levels: its blocks, their operations and
their bindings have names that are all different, and a ratio, which is drawn from a
double, has far fewer digits than are read.
-/

namespace CqlWorkload

open Yaml

/-! ## Ratios -/

/-- A ratio has no more digits than are read from a text. -/
def IsReadable (ratio : Option Int) : Prop :=
  ∀ n ∈ ratio, (Nat.toDigits 10 n.natAbs).length ≤ Digit.limit

theorem Table.isReadable_ratioFor {t : Table} {name : String} {n : Int}
    (h : t.ratioFor name = .ok n) : IsReadable (some n) := by
  rintro _ ⟨⟩
  exact of_decide_eq_true (isShort_of_ratioFor h)

theorem Task.isReadable_ratio {task : Task} {ratio : Option Int} (h : task.ratio = .ok ratio) :
    IsReadable ratio := by
  have hsome : ∀ {found : Except Failure Int}, some <$> found = .ok ratio →
      ∃ n, found = .ok n ∧ ratio = some n := by
    rintro (failure | n) hfound
    · cases hfound
    · exact ⟨n, rfl, by injection hfound with hfound; exact hfound.symm⟩
  cases task with
  | insert t | update t | select t | scan t =>
      obtain ⟨n, hn, rfl⟩ := hsome h
      exact t.isReadable_ratioFor hn
  | createKeyspace | createType | createTable | dropType | dropTable | dropKeyspace | truncate =>
      cases h
      exact fun _ hn => by cases hn

/-! ## Workloads as documents -/

theorem isDocument_ofEntries {depth : Nat} {entries : List (String × Value)}
    (hkeys : (entries.map Prod.fst).Nodup) (h : ∀ entry ∈ entries, IsDocument depth entry.2) :
    IsDocument (depth + 1) (.ofEntries entries) := by
  refine ⟨(Value.keyed_ofNames hkeys).2, ?_⟩
  clear hkeys
  induction entries with
  | nil => trivial
  | cons entry entries ih =>
      exact ⟨rfl, h entry (by simp), ih fun e he => h e (by simp [he])⟩

theorem Op.isDocument {op : Op} (h : IsReadable op.ratio) (depth : Nat) :
    IsDocument (depth + 1) op.toValue := by
  obtain ⟨form, statement, kind, timeout, ratio⟩ := op
  refine isDocument_ofEntries ?_ ?_
  · cases form <;> cases timeout <;> cases ratio <;> simp [Form.text]
  · have hratio : ∀ n, ratio = some n → IsDocument depth (.int n) := fun n hn => h n hn
    cases timeout <;> cases ratio <;> simp [IsDocument] at hratio ⊢
    all_goals exact hratio

theorem Block.isDocument {b : Block} (h : b.ops.keys.Nodup)
    (hratios : ∀ entry ∈ b.ops, IsReadable entry.2.ratio) (depth : Nat) :
    IsDocument (depth + 3) b.toValue := by
  have hparams : IsDocument (depth + 2)
      (.ofEntries (b.timeout.elim [] fun x => [("timeout", .float x)])) := by
    refine isDocument_ofEntries ?_ ?_
    · cases b.timeout <;> simp
    · cases b.timeout <;> simp [IsDocument]
  have hops : IsDocument (depth + 2) (opsValue b.ops) := by
    refine isDocument_ofEntries ?_ fun entry hentry => ?_
    · rw [List.map_map]
      exact h
    · obtain ⟨op, hop, rfl⟩ := List.mem_map.mp hentry
      exact Op.isDocument (hratios op hop) depth
  refine isDocument_ofEntries (by simp) fun entry hentry => ?_
  simp only [List.mem_cons, List.not_mem_nil, or_false] at hentry
  rcases hentry with rfl | rfl
  · exact hparams
  · exact hops

namespace Workload

theorem isDocument_scenarios (depth : Nat) : IsDocument (depth + 2) scenarios := by
  have hdefault : IsDocument (depth + 1) (.ofEntries [
      ("schema", runOnce "schema-.*"),
      ("rampup", runCycles "rampup-.*" "rampup-cycles"),
      ("main", runCycles "main-.*" "main-cycles")]) :=
    isDocument_ofEntries (by decide) (by simp [runOnce, runCycles, IsDocument])
  refine isDocument_ofEntries (by decide) ?_
  simp [runOnce, IsDocument]
  exact hdefault

theorem isDocument_textTable {entries : Entries String} (h : entries.keys.Nodup) (depth : Nat) :
    IsDocument (depth + 1) (textTable entries) := by
  refine isDocument_ofEntries ?_ fun entry hentry => ?_
  · rw [List.map_map]
    exact h
  · obtain ⟨named, -, rfl⟩ := List.mem_map.mp hentry
    trivial

theorem isDocument_blocksValue {w : Workload} (hblocks : w.blocks.keys.Nodup)
    (hops : ∀ block ∈ w.blocks, block.2.ops.keys.Nodup)
    (hratios : ∀ block ∈ w.blocks, ∀ entry ∈ block.2.ops, IsReadable entry.2.ratio)
    (depth : Nat) : IsDocument (depth + 4) w.blocksValue := by
  refine isDocument_ofEntries ?_ fun entry hentry => ?_
  · rw [List.map_map]
    exact hblocks
  · obtain ⟨block, hblock, rfl⟩ := List.mem_map.mp hentry
    exact Block.isDocument (hops block hblock) (hratios block hblock) depth

/-- A workload whose names are different is a document. -/
theorem isDocument {w : Workload} (hbindings : w.bindings.keys.Nodup)
    (hblocks : w.blocks.keys.Nodup) (hops : ∀ block ∈ w.blocks, block.2.ops.keys.Nodup)
    (hratios : ∀ block ∈ w.blocks, ∀ entry ∈ block.2.ops, IsReadable entry.2.ratio) :
    IsDocument 5 w.toValue := by
  refine isDocument_ofEntries (by simp) fun entry hentry => ?_
  simp only [List.mem_cons, List.not_mem_nil, or_false] at hentry
  rcases hentry with rfl | rfl | rfl | rfl
  · trivial
  · exact isDocument_scenarios 2
  · exact isDocument_textTable hbindings 3
  · exact isDocument_blocksValue hblocks hops hratios 0

/-! ## The fixed part -/

theorem isKeptText_of_not_mem {s : String} (h : nextLine ∉ s.toList) : isKeptText s = true := by
  simp [isKeptText, h]

theorem isKeptText_runCommand {pattern threads cycles : String}
    (hpattern : nextLine ∉ pattern.toList) (hthreads : nextLine ∉ threads.toList)
    (hcycles : nextLine ∉ cycles.toList) :
    isKeptText (runCommand pattern threads cycles) = true := by
  refine isKeptText_of_not_mem ?_
  have hfixed : ∀ piece ∈ ["run driver=cql tags=block:'", "' ", " "],
      nextLine ∉ piece.toList := by simp [nextLine]
  simp only [List.forall_mem_cons, List.not_mem_nil, false_imp_iff, implies_true, and_true]
    at hfixed
  unfold runCommand
  simp only [String.toList_append, List.mem_append, not_or]
  exact ⟨⟨⟨⟨⟨hfixed.1, hpattern⟩, hfixed.2.1⟩, hthreads⟩, hfixed.2.2⟩, hcycles⟩

theorem isKept_runOnce {pattern : String} (h : nextLine ∉ pattern.toList) :
    isKept (runOnce pattern) = true := by
  rw [runOnce, isKept]
  refine isKeptText_runCommand h ?_ ?_
  · simp [nextLine]
  · simp [nextLine]

theorem isKept_runCycles {pattern cycles : String} (hpattern : nextLine ∉ pattern.toList)
    (hcycles : nextLine ∉ cycles.toList) : isKept (runCycles pattern cycles) = true := by
  rw [runCycles, isKept]
  refine isKeptText_runCommand hpattern (by simp [nextLine]) ?_
  simp only [String.toList_append, List.mem_append, not_or]
  exact ⟨⟨by simp [nextLine], hcycles⟩, by simp [nextLine]⟩

theorem keysFit_ofEntries (entries : List (String × Value)) :
    keysFit (.ofEntries entries) =
      entries.all fun entry => keyFits entry.1 && keysFit entry.2 := by
  rw [Value.ofEntries, keysFit]
  induction entries with
  | nil => rfl
  | cons entry entries ih => rw [List.map_cons, entriesFit, ih, List.all_cons, Value.plainText]

theorem isKept_ofEntries (entries : List (String × Value)) :
    isKept (.ofEntries entries) =
      entries.all fun entry => isKeptText entry.1 && isKept entry.2 := by
  rw [Value.ofEntries, isKept]
  induction entries with
  | nil => rfl
  | cons entry entries ih => rw [List.map_cons, entriesKept, ih, List.all_cons, Value.plainText]

theorem keysFit_scenarios : keysFit scenarios = true := by
  simp (disch := decide) [scenarios, keysFit_ofEntries, keyFits_of_length_le, runOnce, runCycles,
    keysFit]

/-- The scenarios are always read as they were. -/
theorem isKept_scenarios : isKept scenarios = true := by
  have hkeys : ∀ key ∈ ["default", "schema", "rampup", "main", "truncate", "schema-keyspaces",
      "schema-types", "schema-tables", "drop", "drop-tables", "drop-types", "drop-keyspaces"],
      isKeptText key = true := by decide +kernel
  simp only [List.forall_mem_cons] at hkeys
  simp [scenarios, isKept_ofEntries, isKept_runOnce, isKept_runCycles, nextLine, hkeys]

/-- Whether a workload comes back depends on its bindings and its blocks. -/
theorem keysFit_toValue (w : Workload) :
    keysFit w.toValue = (keysFit w.bindingsValue && keysFit w.blocksValue) := by
  simp (disch := decide) [toValue, keysFit_ofEntries, keyFits_of_length_le, keysFit_scenarios,
    keysFit]

theorem isKept_toValue (w : Workload) :
    isKept w.toValue = (isKept w.bindingsValue && isKept w.blocksValue) := by
  have htexts : ∀ text ∈ ["description", "scenarios", "bindings", "blocks", description],
      isKeptText text = true := by decide +kernel
  simp only [List.forall_mem_cons] at htexts
  simp [toValue, isKept_ofEntries, htexts, isKept_scenarios, isKept]

namespace Compiled

variable {s : Schema} {c : Config} {ctx : Context} {last : Session} {w : Workload}

theorem isDocument (h : w.Compiled s c ctx last) (hs : s.Sound) (hc : c.Valid) :
    IsDocument 5 w.toValue := by
  refine Workload.isDocument ?_ (h.carriesOut.keys_blocks ▸ hc.blocks)
    (fun block hblock => h.nodup_ops hblock) fun block hblock entry hentry => ?_
  · rw [h.bindings_eq hs, Entries.keys, List.map_map]
    exact h.nodup_names hs
  · obtain ⟨planned, _, _, hops⟩ := forall₂_exists_left h.carriesOut hblock
    obtain ⟨task, _, hentered⟩ := forall₂_exists_left hops hentry
    exact Task.isReadable_ratio hentered.ratio

/-- The text of a workload is read as the workload exactly if its keys are short enough
and its texts are kept. -/
theorem read_text_iff (h : w.Compiled s c ctx last) (hs : s.Sound) (hc : c.Valid) :
    Yaml.read (w.text .yaml) = .ok w.toValue ↔
      keysFit w.toValue = true ∧ isKept w.toValue = true := by
  have hdocument := h.isDocument hs hc
  obtain ⟨entries, hvalue, hne⟩ : ∃ entries, w.toValue = .map entries ∧ entries ≠ [] :=
    ⟨_, rfl, by simp⟩
  rw [Workload.text, hvalue]
  rw [hvalue] at hdocument
  exact read_write_iff hdocument hne (by decide)

end Compiled
end Workload

/-- **Reading a written workload.** The workload comes back with its keys in order and its
statements letter by letter exactly if every simple key, as it is written, is short
enough for its colon to be found, and every text with a next-line character is written in
double quotes. -/
theorem Exporter.reread_workload_iff {s : Schema} {c : Config}
    {transformers : List Transformer} {e : Exporter} {w : Workload} (hs : s.Valid) (hc : c.Valid)
    (he : (Exporter.ofTransformers s c transformers).1 = .ok e) (hw : e.workload.1 = .ok w) :
    Yaml.read (w.text .yaml) = .ok w.toValue ↔
      keysFit w.toValue = true ∧ isKept w.toValue = true := by
  obtain ⟨hsound, rfl⟩ := Exporter.sound_ofTransformers hs.toSound he
  obtain ⟨ctx, last, h⟩ := Workload.generate_eq_ok hsound hw
  exact h.read_text_iff hsound hc

/-- The workload of the orders comes back as it was. -/
theorem Exporter.reread_workload_iff_orders :
    Schema.orders.Valid ∧ Config.readsAndWrites.Valid ∧
      ∃ w, (Exporter.mk .orders .readsAndWrites).workload.1 = .ok w ∧
        Yaml.read (w.text .yaml) = .ok w.toValue := by
  obtain ⟨w, hw, hkept⟩ : ∃ w, (Exporter.mk .orders .readsAndWrites).workload.1 = .ok w ∧
      ((keysFit w.bindingsValue && keysFit w.blocksValue) &&
        (isKept w.bindingsValue && isKept w.blocksValue)) = true :=
    Exporter.exists_workload (by decide +kernel)
  rw [← Workload.keysFit_toValue, ← Workload.isKept_toValue, Bool.and_eq_true] at hkept
  have hread := Exporter.reread_workload_iff Schema.valid_orders Config.valid_readsAndWrites
    (Exporter.ofTransformers_nil ..) hw
  exact ⟨Schema.valid_orders, Config.valid_readsAndWrites, w, hw, hread.mpr hkept⟩

/-- A schema without elements. -/
def Schema.bare : Schema where
  keyspaces := []
  types := []
  tables := []

/-- A configuration with one block, the name of which has a next-line character. -/
def Config.twoLines : Config where
  namingTemplate := Template.standard
  partitionMultiplier := .ofInt 1
  timeouts := .standard
  elideUnusedTables := false
  blockplan := [("a\u0085b", [.dropTables])]
  transformers := []
  typeBindings := []

/-- The name of the block is written in single quotes, and a document with another name
is read. -/
theorem Exporter.reread_workload_twoLines :
    Schema.bare.Valid ∧ Config.twoLines.Valid ∧
      ∃ w, (Exporter.mk .bare .twoLines).workload.1 = .ok w ∧
        Yaml.read (w.text .yaml) ≠ .ok w.toValue := by
  have hs : Schema.bare.Valid := by decide +kernel
  have hc : Config.twoLines.Valid := by decide +kernel
  obtain ⟨w, hw, hlost⟩ : ∃ w, (Exporter.mk .bare .twoLines).workload.1 = .ok w ∧
      (!isKept w.blocksValue) = true := Exporter.exists_workload (by decide +kernel)
  obtain ⟨ctx, last, h⟩ := Workload.generate_eq_ok hs.toSound hw
  refine ⟨hs, hc, w, hw, fun hread => ?_⟩
  have hkept := ((h.read_text_iff hs.toSound hc).mp hread).2
  rw [Workload.isKept_toValue, Bool.and_eq_true] at hkept
  rw [hkept.2] at hlost
  exact absurd hlost Bool.false_ne_true

end CqlWorkload
