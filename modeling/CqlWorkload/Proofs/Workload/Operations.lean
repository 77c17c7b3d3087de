import CqlWorkload.Proofs.Workload.Placeholders

/-!
# Operations of a document

The blocks of a workload are those of the plan, in its order, and the operations
of a block are those that its components ask for, one for each element, in order.
None is lost to another one of the same name, none is added, and none changes its
place.

**Timeouts.** The timeout in effect is the configured one of the kind of operation,
wherever it is written.
-/

namespace CqlWorkload

/-- What a task asks of an operation in a block, over given bindings of its needs. -/
structure Task.DoneBy (c : Config) (bound : Need → Binding) (b : Block) (block : String)
    (task : Task) (entry : String × Op) : Prop where
  name : entry.1 = c.nameOf task.element (task.hints block)
  form : entry.2.form = task.form
  statement : entry.2.statement = (task.statement c.partitionMultiplier bound).render
  ratio : task.ratio = .ok entry.2.ratio
  timeout : (c.timeouts.get task.kind).isNaN = false →
    ∃ x, b.timeoutOf entry.2 = some x ∧ x.same (c.timeouts.get task.kind) = true

/-- **Operations.** Every block of the plan is there, in order, and holds the operations
of its tasks and no others, in order. -/
theorem Exporter.operations_in_order {s : Schema} {c : Config}
    {transformers : List Transformer} {e : Exporter} {w : Workload} (hs : s.Valid)
    (he : (Exporter.ofTransformers s c transformers).1 = .ok e) (hw : e.workload.1 = .ok w) :
    ∃ bound : Need → Binding, w.CarriesOut e.schema c (Task.DoneBy c bound) := by
  obtain ⟨hsound, rfl⟩ := Exporter.sound_ofTransformers hs.toSound he
  obtain ⟨ctx, last, h⟩ := Workload.generate_eq_ok hsound hw
  refine ⟨Binding.boundIn ctx.libraries last.bindings, h.carriesOut.imp ?_⟩
  rintro planned block ⟨hname, hops⟩
  refine ⟨hname, hops.imp fun task entry hentered => ?_⟩
  obtain ⟨name, _, form, _, statement, ratio, timeout⟩ := hentered
  rw [h.named] at name
  rw [h.config] at statement timeout
  exact ⟨name, form, statement, ratio, timeout⟩

theorem Exporter.operations_in_order_orders :
    Schema.orders.Valid ∧ ∃ w bound, (Exporter.mk .orders .readsAndWrites).workload.1 = .ok w ∧
      w.CarriesOut .orders .readsAndWrites (Task.DoneBy .readsAndWrites bound) := by
  obtain ⟨w, hw⟩ := Exporter.exists_workload_orders
  obtain ⟨bound, h⟩ :=
    Exporter.operations_in_order Schema.valid_orders (Exporter.ofTransformers_nil ..) hw
  exact ⟨Schema.valid_orders, w, bound, hw, h⟩

end CqlWorkload
