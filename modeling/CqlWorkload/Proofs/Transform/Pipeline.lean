import CqlWorkload.Proofs.Workload.Refusal

/-!
# Lists of transformers

A compile builds the transformers that its configuration lists, applies them one after
the other and generates the workload of what they make (`Workload.compile_eq`).  The
list itself is not looked at again: two configurations that differ in nothing else
generate the same workload of one schema (`Workload.generate_listing`).
-/

namespace CqlWorkload

/-! ## Lists that are put together -/

theorem Catalog.getAll_append (catalog : Catalog) (first second : List TransformerSpec) :
    catalog.getAll (first ++ second) = (do
      let before ← catalog.getAll first
      let after ← catalog.getAll second
      return before ++ after) :=
  List.mapM_append

theorem Catalog.getAll_cons (catalog : Catalog) (spec : TransformerSpec)
    (rest : List TransformerSpec) : catalog.getAll (spec :: rest) = (do
      let transformer ← catalog.get spec.name spec.settings
      let transformers ← catalog.getAll rest
      return transformer :: transformers) :=
  List.mapM_cons

theorem Transformer.applyAll_cons (transformer : Transformer) (rest : List Transformer)
    (s : Schema) : (applyAll (transformer :: rest) s).1 =
      (transformer.apply s).1 >>= fun made => (applyAll rest made).1 := by
  rw [applyAll]
  rcases transformer.apply s with ⟨_ | made, log⟩ <;> rfl

theorem Transformer.applyAll_append (first second : List Transformer) (s : Schema) :
    (applyAll (first ++ second) s).1 =
      (applyAll first s).1 >>= fun made => (applyAll second made).1 := by
  induction first generalizing s with
  | nil => rfl
  | cons transformer rest ih =>
      simp only [List.cons_append, applyAll_cons, bind_assoc, ih]

/-! ## The list of a configuration -/

/-- The configuration with another list of transformers. -/
def Config.listing (c : Config) (specs : List TransformerSpec) : Config :=
  { c with transformers := specs }

namespace Context

/-- The context with another list of transformers. -/
def listing (ctx : Context) (specs : List TransformerSpec) : Context :=
  { ctx with config := ctx.config.listing specs }

variable (ctx : Context) (specs : List TransformerSpec)

theorem eachBound_listing (write : Column → Binding → String) (columns : List Column) :
    (ctx.listing specs).eachBound write columns = ctx.eachBound write columns := by
  induction columns with
  | nil => rfl
  | cons c rest ih =>
      simp only [eachBound, ih]
      rfl

theorem insertPlaceholders_listing (t : Table) (columns : List Column) :
    (ctx.listing specs).insertPlaceholders t columns = ctx.insertPlaceholders t columns := by
  induction columns with
  | nil => rfl
  | cons c rest ih =>
      simp only [insertPlaceholders, ih]
      rfl

theorem requests_listing (block : String) (schema : Schema) (component : Component) :
    (ctx.listing specs).requests block schema component =
      ctx.requests block schema component := by
  have hinsert : (ctx.listing specs).insertOp = ctx.insertOp := by
    funext t
    simp only [insertOp, insertPlaceholders_listing]
    rfl
  have hpredicate : (ctx.listing specs).predicate = ctx.predicate := by
    funext t count
    simp only [predicate, eachBound_listing]
  have hassignments : (ctx.listing specs).assignments = ctx.assignments := by
    funext t
    simp only [assignments, eachBound_listing]
  have hquery : (ctx.listing specs).queryOp = ctx.queryOp := by
    funext kind count t
    simp only [queryOp, hpredicate]
    rfl
  have hupdate : (ctx.listing specs).updateOp = ctx.updateOp := by
    funext t
    simp only [updateOp, hpredicate, hassignments]
    rfl
  cases component with
  | insert => simp only [requests, hinsert]
  | select => simp only [requests, hquery]
  | scan => simp only [requests, hquery]
  | update => simp only [requests, hupdate]
  | _ => rfl

theorem collect_listing (schema : Schema) (block : String) (components : List Component)
    (before : Entries Op) :
    (ctx.listing specs).collect schema block before components =
      ctx.collect schema block before components := by
  induction components generalizing before with
  | nil => rfl
  | cons component rest ih => simp only [collect, generate, requests_listing, ih]

theorem planAll_listing (schema : Schema) (plan : Entries (List Component)) :
    (ctx.listing specs).planAll schema plan = ctx.planAll schema plan := by
  induction plan with
  | nil => rfl
  | cons planned rest ih => simp only [planAll, planBlock, collect_listing, ih]

theorem compile_listing (schema : Schema) :
    (ctx.listing specs).compile schema = ctx.compile schema := by
  simp only [compile, planAll_listing]
  rfl

theorem create_listing (c : Config) :
    create (c.listing specs) =
      (create c).map fun started => (started.1.listing specs, started.2) := by
  unfold create
  cases htemplate : Template.read c.namingTemplate with
  | error fault => simp only [Config.listing, htemplate, Except.map]
  | ok template =>
      simp only [Config.listing, htemplate]
      by_cases hempty : c.typeBindings.isEmpty = true
      · simp only [hempty, if_true]
        rfl
      · simp only [hempty]
        cases Library.ofPatterns "type_bindings"
          (c.typeBindings.map fun entry => (entry.1, some entry.2)) <;> rfl

end Context

/-- **The list of transformers does not matter once they are applied.** -/
theorem Workload.generate_listing (s : Schema) (c : Config) (specs : List TransformerSpec) :
    Workload.generate s (c.listing specs) = Workload.generate s c := by
  rw [generate, generate, Context.create_listing]
  cases Context.create c with
  | error failure => rfl
  | ok started => simp only [Except.map, Context.compile_listing]

/-- **A compile** builds its transformers, applies them and generates a workload. -/
theorem Workload.compile_eq (s : Schema) (c : Config) :
    (Workload.compile s c).1 = (do
      let transformers ← Catalog.builtIn.getAll c.transformers
      let made ← (Transformer.applyAll transformers s).1
      (Workload.generate made c).1) := by
  cases hall : Catalog.builtIn.getAll c.transformers with
  | error failure =>
      rw [compile, Exporter.create, hall]
      rfl
  | ok transformers =>
      cases happly : (Transformer.applyAll transformers s).1 with
      | error failure =>
          rw [compile_eq_error_of_applyAll hall happly]
          simp only [bind, Except.bind, happly]
      | ok made =>
          rw [compile_eq_of_applyAll hall happly]
          simp only [bind, Except.bind, happly]

theorem Workload.compile_listing (s : Schema) (c : Config) (specs : List TransformerSpec) :
    (Workload.compile s (c.listing specs)).1 = (do
      let transformers ← Catalog.builtIn.getAll specs
      let made ← (Transformer.applyAll transformers s).1
      (Workload.generate made c).1) := by
  simp only [compile_eq, generate_listing]
  rfl

end CqlWorkload
