import CqlWorkload.Proofs.Workload.Placeholders

/-!
# Names of a document

The operations of all blocks and the bindings of a workload have names that are
all different, and none of them is taken from an element of the schema that the
name was not issued for.

**Owners.** Every name of a document was issued by one registry, which gives a name
to one owner only.  Operations of different blocks have owners that differ in
their blocks, and the owners of bindings are in no block; within a block a name
that comes up again is refused.
-/

namespace CqlWorkload

/-- An identifier that some element of the schema declares. -/
def Schema.Declares (s : Schema) (name : String) : Prop :=
  ∃ e, e ∈ Registry.elements s ∧ e.identifier? = some name

namespace Workload

def opNames (w : Workload) : List String := w.blocks.flatMap fun block => block.2.ops.keys

namespace Compiled

variable {s : Schema} {c : Config} {ctx : Context} {last : Session} {w : Workload}

/-- A declared name is issued only to an owner that is called so. -/
theorem name_of_declares (h : w.Compiled s c ctx last) {name : String} {owner : Owner}
    (hissued : last.registry.issued.get? name = some owner) (hd : s.Declares name) :
    owner.name = name := by
  obtain ⟨e, he, hid⟩ := hd
  obtain ⟨declared, howner, hname⟩ := Option.map_eq_some_iff.mp hid
  rcases h.admitted name owner hissued with hnone | ⟨d, hd, hsame⟩
  · have hm : declared ∈ last.registry.declarers name := by
      rw [h.declared, List.mem_filter]
      exact ⟨List.mem_filterMap.mpr ⟨e, he, howner⟩, by simpa using hname⟩
    rw [hnone] at hm
    cases hm
  · rw [h.declared, List.mem_filter] at hd
    simp only [Owner.sameElement, Bool.and_eq_true, beq_iff_eq] at hsame
    exact hsame.2.symm.trans (by simpa using hd.2)

theorem exists_task_of_mem_ops (h : w.Compiled s c ctx last) {block : String × Block}
    (hb : block ∈ w.blocks) {name : String} (hn : name ∈ block.2.ops.keys) :
    ∃ task : Task, last.registry.issued.get? name = task.owner? block.1 := by
  obtain ⟨planned, _, hname, hops⟩ := forall₂_exists_left h.carriesOut hb
  obtain ⟨entry, he, rfl⟩ := List.mem_map.mp hn
  obtain ⟨task, _, hentered⟩ := forall₂_exists_left hops he
  exact ⟨task, hname ▸ hentered.issued⟩

/-- **Operations of all blocks have different names.** -/
theorem nodup_opNames (h : w.Compiled s c ctx last) (hc : c.Valid) : w.opNames.Nodup := by
  refine List.nodup_flatMap.mpr ⟨fun block hb => h.nodup_ops hb, ?_⟩
  have hblocks : w.blocks.Pairwise fun a b => a.1 ≠ b.1 := by
    have hkeys : w.blocks.keys.Nodup := h.carriesOut.keys_blocks ▸ hc.blocks
    exact List.pairwise_map.mp hkeys
  refine hblocks.imp_of_mem fun {a b} ha hb hne => ?_
  intro name hfirst hsecond
  obtain ⟨task, htask⟩ := h.exists_task_of_mem_ops ha hfirst
  obtain ⟨other, hother⟩ := h.exists_task_of_mem_ops hb hsecond
  exact hne (Task.owner?_inj (htask.symm.trans hother)).2

/-- **No operation has the name of a binding.** -/
theorem not_mem_keys_bindings (h : w.Compiled s c ctx last) (hs : s.Sound) {name : String}
    (hn : name ∈ w.opNames) : name ∉ w.bindings.keys := by
  intro hb
  obtain ⟨block, hblock, hn⟩ := List.mem_flatMap.mp hn
  obtain ⟨task, htask⟩ := h.exists_task_of_mem_ops hblock hn
  rw [h.bindings_eq hs, Entries.keys, List.map_map] at hb
  obtain ⟨b, hm, rfl⟩ := List.mem_map.mp hb
  obtain ⟨need, _, horigin⟩ := h.origins b hm
  obtain ⟨base, _, _, howner⟩ := Task.exists_owner block.1 task
  have hsame : need.owner = _ :=
    Option.some.inj (horigin.issued.symm.trans (htask.trans howner))
  have hrole := congrArg (fun owner => owner.role.length) hsame
  obtain ⟨column, modulus⟩ := need
  cases modulus <;> simp [Need.owner, Need.hints] at hrole

end Compiled
end Workload

/-- **Names.** All operations of a document have different names, no binding has the name
of one, and a name that the schema declares goes to no element but one that declares
it. -/
theorem Exporter.names_distinct {s : Schema} {c : Config} {transformers : List Transformer}
    {e : Exporter} {w : Workload} (hs : s.Valid) (hc : c.Valid)
    (he : (Exporter.ofTransformers s c transformers).1 = .ok e) (hw : e.workload.1 = .ok w) :
    w.opNames.Nodup ∧ (∀ name, name ∈ w.opNames → name ∉ w.bindings.keys) ∧
      w.CarriesOut e.schema c (fun _ block task entry =>
        entry.1 = c.nameOf task.element (task.hints block) ∧
          (e.schema.Declares entry.1 → task.element.identifier? = some entry.1)) ∧
      ∀ b : Binding, (b.name, b.recipe) ∈ w.bindings →
        ∃ need, Binding.firstNeed? c.libraries (c.needs e.schema) b = some need ∧
          b.name = c.nameOf (.column need.column) need.hints ∧
            (e.schema.Declares b.name → need.column.name = b.name) := by
  obtain ⟨hsound, rfl⟩ := Exporter.sound_ofTransformers hs.toSound he
  obtain ⟨ctx, last, h⟩ := Workload.generate_eq_ok hsound hw
  refine ⟨h.nodup_opNames hc, fun name hn => h.not_mem_keys_bindings hsound hn, ?_, ?_⟩
  · refine h.carriesOut.imp ?_
    rintro planned block ⟨hname, hops⟩
    refine ⟨hname, hops.imp fun task entry hentered => ⟨?_, fun hd => ?_⟩⟩
    · rw [← h.named]
      exact hentered.name
    · obtain ⟨base, hbase, _, howner⟩ := Task.exists_owner planned.1 task
      have hcalled := h.name_of_declares (hentered.issued.trans howner) hd
      rw [Element.identifier?, hbase]
      exact congrArg some hcalled
  · intro b hb
    rw [h.bindings_eq hsound] at hb
    obtain ⟨made, hm, hsame⟩ := List.mem_map.mp hb
    obtain ⟨hname, hrecipe⟩ := Prod.mk.inj hsame
    obtain rfl : made = b := by
      cases made
      cases b
      simp_all
    obtain ⟨need, hneed, horigin⟩ := h.origins made hm
    refine ⟨need, hneed, ?_, h.name_of_declares horigin.issued⟩
    rw [← h.named]
    exact congrArg Binding.name horigin.made

theorem Exporter.names_distinct_orders :
    Schema.orders.Valid ∧ Config.readsAndWrites.Valid ∧
      ∃ w, (Exporter.mk .orders .readsAndWrites).workload.1 = .ok w ∧ w.opNames.Nodup := by
  obtain ⟨w, hw⟩ := Exporter.exists_workload_orders
  obtain ⟨hn, _⟩ := Exporter.names_distinct Schema.valid_orders Config.valid_readsAndWrites
    (Exporter.ofTransformers_nil ..) hw
  exact ⟨Schema.valid_orders, Config.valid_readsAndWrites, w, hw, hn⟩

end CqlWorkload
