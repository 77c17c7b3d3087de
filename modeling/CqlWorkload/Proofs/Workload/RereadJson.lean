import CqlWorkload.Proofs.Json.Storable
import CqlWorkload.Proofs.Workload.Reread

/-!
# Reading workloads written as JSON

The JSON text of a workload is read as the workload again (`Exporter.reread_json`): its
keys in order at every level, its texts character by character, and its ratios and
timeouts with their values and their kinds.

**Timeouts.** A workload may have infinite timeouts, and timeouts that are no numbers.
Unlike a saved schema, which drops them, its text has words of their own for them, so
every double is read as itself (`rereads_workloadStyle`).
-/

namespace CqlWorkload
namespace Json

open Yaml

/-! ## Doubles -/

/-- In the text of a workload every double is read as itself. -/
theorem rereads_workloadStyle : workloadStyle.Rereads .float where
  start x := by
    cases hx : x.isFinite with
    | true => exact exists_render_startsScalar (Or.inl rfl) hx
    | false =>
        rcases eq_of_not_isFinite hx with rfl | ⟨_ | _, rfl⟩
        · exact ⟨'N', _, rfl, by decide, by decide, by decide⟩
        · exact ⟨'I', _, rfl, by decide, by decide, by decide⟩
        · exact ⟨'-', _, rfl, by decide, by decide, by decide⟩
  read x rest hr := by
    cases hx : x.isFinite with
    | true => exact scalar?_render (Or.inl rfl) hx hr
    | false =>
        rcases eq_of_not_isFinite hx with rfl | ⟨_ | _, rfl⟩ <;> rfl

/-! ## Documents -/

mutual

/-- A document of no more levels than may be nested comes back as it was. -/
theorem reread_document {levels depth : Nat} (hle : levels ≤ depth) (v : Value)
    (h : IsDocument levels v) : reread .float depth v = some v := by
  match v, h with
  | .text s, _ => rfl
  | .float x, _ => rfl
  | .int n, h =>
      have hfew : ¬digitLimit < (Nat.toDigits 10 n.natAbs).length := Nat.not_lt_of_le h
      rw [reread, if_neg hfew]
  | .map [], _ => rfl
  | .map (entry :: rest), h =>
      match levels, depth, h with
      | levels + 1, depth + 1, ⟨hkeys, h⟩ =>
          -- The keys are different, so no entry is put in the place of another.
          have hkeyed : Value.Keyed ([] ++ entry :: rest) := ⟨h.texts, hkeys⟩
          have hentries : rereadEntries .float depth [] (entry :: rest) = some (entry :: rest) :=
            (rereadEntries_eq_some_iff hkeyed).mpr ⟨entry :: rest, rfl,
              List.forall₂_same.mpr fun e he =>
                ⟨rfl, reread_entry_document (Nat.le_of_succ_le_succ hle) (entry :: rest) h e he⟩⟩
          rw [reread, hentries]
          rfl

theorem reread_entry_document {levels depth : Nat} (hle : levels ≤ depth)
    (entries : List (Value × Value)) (h : AreEntries levels entries) (entry : Value × Value)
    (he : entry ∈ entries) : reread .float depth entry.2 = some entry.2 := by
  match entries, h with
  | (key, value) :: rest, ⟨_, hvalue, hrest⟩ =>
      rcases List.mem_cons.mp he with rfl | he
      · exact reread_document hle value hvalue
      · exact reread_entry_document hle rest hrest entry he

end

end Json

/-! ## Workloads -/

theorem Workload.Compiled.read_json {s : Schema} {c : Config} {ctx : Context} {last : Session}
    {w : Workload} (h : w.Compiled s c ctx last) (hs : s.Sound) (hc : c.Valid) {depth : Nat}
    (hdepth : 5 ≤ depth) : Json.read? depth (w.text .json) = some w.toValue := by
  have hbreak : Json.IsBlank "\n".toList := by simp [Json.IsBlank]
  rw [Workload.text, Json.read?_write_append Json.rereads_workloadStyle depth w.toValue hbreak]
  exact Json.reread_document hdepth w.toValue (h.isDocument hs hc)

/-- **Reading a workload written as JSON** gives the workload itself, for every reader that
takes the five levels of a workload. -/
theorem Exporter.reread_json {s : Schema} {c : Config} {transformers : List Transformer}
    {e : Exporter} {w : Workload} (hs : s.Valid) (hc : c.Valid)
    (he : (Exporter.ofTransformers s c transformers).1 = .ok e) (hw : e.workload.1 = .ok w)
    {depth : Nat} (hdepth : 5 ≤ depth) : Json.read? depth (w.text .json) = some w.toValue := by
  obtain ⟨hsound, rfl⟩ := Exporter.sound_ofTransformers hs.toSound he
  obtain ⟨ctx, last, h⟩ := Workload.generate_eq_ok hsound hw
  exact h.read_json hsound hc hdepth

/-- A configuration that never gives up waiting, with a block whose name is escaped. -/
def Config.patient : Config :=
  { Config.readsAndWrites with
    timeouts := .ofFunction fun _ => .infinite false
    blockplan := [("größe\t😀", [.insert, .select])] }

/-- The infinite timeout of the block is read again, and so is its name. -/
theorem Exporter.reread_json_patient :
    Schema.orders.Valid ∧ Config.patient.Valid ∧
      ∃ w, (Exporter.mk .orders .patient).workload.1 = .ok w ∧
        w.blocks.map (fun block => (block.1, block.2.timeout)) =
          [("größe\t😀", some (.infinite false))] ∧
        Json.read? 5 (w.text .json) = some w.toValue := by
  have hc : Config.patient.Valid := by decide +kernel
  obtain ⟨w, hw, hblocks⟩ : ∃ w, (Exporter.mk .orders .patient).workload.1 = .ok w ∧
      decide (w.blocks.map (fun block => (block.1, block.2.timeout)) =
        [("größe\t😀", some (.infinite false))]) = true :=
    Exporter.exists_workload (by decide +kernel)
  have hread := Exporter.reread_json Schema.valid_orders hc (Exporter.ofTransformers_nil ..) hw le_rfl
  exact ⟨Schema.valid_orders, hc, w, hw, of_decide_eq_true hblocks, hread⟩

end CqlWorkload
