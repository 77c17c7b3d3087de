import CqlWorkload.Proofs.Transform.Pipeline

/-!
# Lookups of a compile

A compile looks up a timeout for every operation and, if its components are given by
tags, a component for every tag.  Both are always found: no compile fails for a lookup
(`Workload.finds_compile`), and components may as well be given by their tags
(`Context.planTags_tags`).

**Steps.** What a step may fail with is no failed lookup (`Step.Finds`); the lemmas go
up from the results that operations are made of to the whole compile.
-/

namespace CqlWorkload

/-- A timeout or a component is looked up and is not there. -/
inductive Failure.IsMiss : Failure → Prop
  | timeout (kind : String) : IsMiss (.unknownTimeout kind)
  | component (tag : String) : IsMiss (.unknownComponent tag)

/-- Failed lookups are of two categories. -/
theorem Failure.IsMiss.category {failure : Failure} (h : failure.IsMiss) :
    failure.category = .key ∨ failure.category = .blockPlan := by
  cases h with
  | timeout kind => exact Or.inl rfl
  | component tag => exact Or.inr rfl

/-- A result that is no failed lookup. -/
def Finds {α : Type} (found : Except Failure α) : Prop :=
  ∀ failure, found = .error failure → ¬failure.IsMiss

section Results

variable {α β : Type}

theorem finds_ok (a : α) : Finds (.ok a : Except Failure α) := by
  intro failure h
  cases h

theorem finds_error {failure : Failure} (h : ¬failure.IsMiss) :
    Finds (.error failure : Except Failure α) := by
  intro other ho
  cases ho
  exact h

/-- A failure of another category is no failed lookup. -/
theorem finds_of_category {found : Except Failure α}
    (h : ∀ failure, found = .error failure →
      failure.category ≠ .key ∧ failure.category ≠ .blockPlan) : Finds found := by
  intro failure hf hmiss
  obtain ⟨hkey, hplan⟩ := h failure hf
  exact hmiss.category.elim hkey hplan

theorem Finds.bind {found : Except Failure α} {f : α → Except Failure β} (h : Finds found)
    (hf : ∀ a, Finds (f a)) : Finds (found >>= f) := by
  cases found with
  | ok a => exact hf a
  | error failure => exact finds_error (h failure rfl)

theorem Finds.map {found : Except Failure α} (h : Finds found) (f : α → β) :
    Finds (f <$> found) := by
  cases found with
  | ok a => exact finds_ok (f a)
  | error failure => exact finds_error (h failure rfl)

end Results

/-! ## Statistics -/

theorem Failure.finds_whole (found : Except Double.NotWhole Int) :
    Finds (Failure.whole found) :=
  finds_of_category fun failure h => by
    rcases category_of_whole h with hc | hc <;> simp [hc]

theorem Statistic.finds_numeric (stats : Entries Statistic) (name owner : String) :
    Finds (numeric stats name owner) :=
  finds_of_category fun failure h => by
    rcases category_of_numeric h with hc | hc <;> simp [hc]

namespace Table

theorem finds_ratioFor (t : Table) (name : String) : Finds (t.ratioFor name) := by
  unfold ratioFor
  split
  · split
    next failure hf => exact finds_error (Statistic.finds_numeric _ _ _ failure hf)
    · exact Failure.finds_whole _
  · exact finds_ok 1

theorem finds_totalRatio (t : Table) : Finds t.totalRatio := by
  unfold totalRatio
  split
  · split
    next failure hf => exact finds_error (t.finds_ratioFor _ failure hf)
    · split
      next failure hf => exact finds_error (t.finds_ratioFor _ failure hf)
      · exact finds_ok _
  · exact finds_ok 1

theorem finds_partitionModulo (t : Table) (multiplier : Double) :
    Finds (t.partitionModulo multiplier) := by
  unfold partitionModulo
  split
  next failure hf => exact finds_error (Statistic.finds_numeric _ _ _ failure hf)
  · exact Failure.finds_whole _

end Table

/-! ## Steps -/

namespace Step

variable {α β : Type}

/-- A step that never fails for a lookup. -/
def Finds (m : Step α) : Prop := ∀ s, CqlWorkload.Finds (m s).1

theorem Finds.pure (a : α) : Finds (pure a : Step α) := fun _ => finds_ok a

theorem Finds.ofExcept {found : Except Failure α} (h : CqlWorkload.Finds found) :
    Finds (ofExcept found) :=
  fun _ => h

theorem Finds.report (entries : Log) : Finds (report entries) := fun _ => finds_ok ()

/-- A name is refused for itself, not for a lookup. -/
theorem Finds.nameFor (element : Element) (hints : List (String × String)) :
    Finds (nameFor element hints) := by
  refine fun s => finds_of_category fun failure h => ?_
  rcases Registry.category_of_nameFor (nameFor_eq_error h) with hc | hc | ⟨hc, _⟩ <;> simp [hc]

theorem Finds.bind {m : Step α} {f : α → Step β} (hm : Finds m) (hf : ∀ a, Finds (f a)) :
    Finds (m >>= f) := by
  intro s
  rcases hrun : m s with ⟨found, u⟩
  cases found with
  | error failure =>
      rw [bind_of_error hrun]
      exact finds_error (hm s failure (by rw [hrun]))
  | ok a =>
      rw [bind_of_ok hrun]
      exact hf a u

/-- A note that is taken on a condition does no harm. -/
theorem Finds.noted {p : Prop} [Decidable p] {m : Step α} (note : Log) (hm : Finds m) :
    Finds (if p then do Step.report note; m else m) := by
  split
  · exact (Finds.report note).bind fun _ => hm
  · exact hm

end Step

open Step

/-! ## Bindings -/

namespace Context

variable {ctx : Context}

theorem finds_bind (c : Column) (modifier : String) (hints : List (String × String)) :
    Step.Finds (ctx.bind c modifier hints) := by
  have hrecipe : CqlWorkload.Finds (Binding.recipeFor ctx.libraries c) := by
    unfold Binding.recipeFor
    split
    · exact finds_ok _
    · exact finds_error nofun
  have hexisting : ∀ recipe, Step.Finds (existing recipe) := fun _ _ => finds_ok _
  refine (Finds.ofExcept hrecipe).bind fun base => (hexisting _).bind fun found => ?_
  cases found with
  | some b => exact .pure b
  | none => exact (Finds.nameFor _ _).bind fun name _ => finds_ok _

theorem finds_bindPlain (c : Column) : Step.Finds (ctx.bindPlain c) := finds_bind c _ _

theorem finds_insertBinding (t : Table) (c : Column) : Step.Finds (ctx.insertBinding t c) := by
  unfold insertBinding
  split
  · rw [bindDivided_eq]
    split
    · exact finds_bindPlain c
    · refine (Finds.ofExcept (t.finds_partitionModulo _)).bind fun modulo => ?_
      split
      · exact (Finds.report _).bind fun _ => finds_bindPlain c
      · exact (Finds.report _).bind fun _ => finds_bind c _ _
  · exact finds_bindPlain c

theorem finds_bindEach {one : Column → Step Binding} (write : Column → Binding → String)
    (hone : ∀ c, Step.Finds (one c)) (columns : List Column) :
    Step.Finds (bindEach one write columns) := by
  induction columns with
  | nil => exact .pure []
  | cons c rest ih => exact (hone c).bind fun b => ih.bind fun texts => .pure _

/-! ## Statements -/

theorem finds_predicate (t : Table) (count : Int) : Step.Finds (ctx.predicate t count) := by
  unfold predicate
  rw [eachBound_eq_bindEach]
  exact (Finds.report _).bind fun _ =>
    (finds_bindEach _ finds_bindPlain _).bind fun clauses => .pure _

theorem finds_assignments (t : Table) : Step.Finds (ctx.assignments t) := by
  unfold assignments
  rw [eachBound_eq_bindEach]
  exact (finds_bindEach _ finds_bindPlain _).bind fun parts => .pure _

/-- **The timeout of an operation is found**, and so is everything else it is made of. -/
theorem finds_opOf (form : Form) (kind : TimeoutKind) (statement : Statement)
    {ratio : Except Failure (Option Int)} (hr : CqlWorkload.Finds ratio) :
    Step.Finds (ctx.opOf form kind statement ratio) := by
  have htext : CqlWorkload.Finds statement.text :=
    finds_of_category fun failure h => by simp [Statement.category_of_text h]
  have htimeout : CqlWorkload.Finds (ctx.timeout kind) := by
    rw [timeout_eq]
    exact finds_ok _
  exact (Finds.ofExcept htext).bind fun text => (Finds.ofExcept htimeout).bind fun timeout =>
    (Finds.ofExcept hr).bind fun ratio => .pure _

theorem finds_simpleOp (kind : TimeoutKind) (statement : Statement) :
    Step.Finds (ctx.simpleOp kind statement) :=
  finds_opOf _ _ _ (finds_ok none)

theorem finds_preparedOp (kind : TimeoutKind) (statement : Statement) (t : Table)
    (name : String) : Step.Finds (ctx.preparedOp kind statement (t.ratioFor name)) :=
  finds_opOf _ _ _ ((t.finds_ratioFor name).map some)

theorem finds_createKeyspace (k : Keyspace) : Step.Finds (ctx.createKeyspace k) := by
  have hbody : CqlWorkload.Finds (replicationBody k) :=
    finds_of_category fun failure h => by
      rcases category_of_replicationBody h with hc | hc <;> simp [hc]
  exact (Finds.ofExcept hbody).bind fun body => finds_simpleOp _ _

theorem finds_createTable (block : String) (t : Table) :
    Step.Finds (ctx.createTable block t) := by
  have helided : CqlWorkload.Finds (ctx.isElided t) := by
    unfold isElided
    split
    · exact t.finds_totalRatio.map _
    · exact finds_ok false
  refine (Finds.ofExcept helided).bind fun elided => ?_
  split
  · exact (Finds.report _).bind fun _ => .pure none
  · exact .noted _ (finds_simpleOp _ _)

theorem finds_insertOp (t : Table) : Step.Finds (ctx.insertOp t) := by
  have hplaceholders : Step.Finds (ctx.insertPlaceholders t t.columns) := by
    rw [insertPlaceholders_eq_bindEach]
    exact finds_bindEach _ (finds_insertBinding t) _
  exact .noted _ (hplaceholders.bind fun placeholders => finds_preparedOp _ _ t _)

theorem finds_queryOp (kind : TimeoutKind) (count : Int) (t : Table) :
    Step.Finds (ctx.queryOp kind count t) :=
  (finds_predicate t count).bind fun _ => finds_preparedOp _ _ t _

theorem finds_updateOp (t : Table) : Step.Finds (ctx.updateOp t) := by
  unfold updateOp
  split
  · exact (Finds.report _).bind fun _ => .pure none
  · exact (finds_assignments t).bind fun assignments =>
      (finds_predicate t 0).bind fun predicate => finds_preparedOp _ _ t _

end Context

/-! ## Plans -/

theorem Task.finds_make (ctx : Context) (block : String) (task : Task) :
    Step.Finds (task.make ctx block) := by
  cases task with
  | createKeyspace k => exact Context.finds_createKeyspace k
  | createTable t => exact Context.finds_createTable block t
  | insert t => exact Context.finds_insertOp t
  | select t | scan t => exact Context.finds_queryOp _ _ t
  | update t => exact Context.finds_updateOp t
  | createType | dropType | dropTable | dropKeyspace | truncate =>
      exact Context.finds_simpleOp _ _

namespace Context

variable {ctx : Context} {block : String}

theorem finds_fulfil (component : Component) (tasks : List Task) (before : Entries Op) :
    Step.Finds (fulfil component block before (tasks.map (·.request ctx block))) := by
  induction tasks generalizing before with
  | nil => exact .pure before
  | cons task rest ih =>
      refine (task.finds_make ctx block).bind fun found => ?_
      cases found with
      | none => exact ih before
      | some op => exact (Finds.nameFor _ _).bind fun name => ih _

theorem finds_generate (schema : Schema) (component : Component) :
    Step.Finds (ctx.generate schema block component) := by
  rw [generate, requests_eq]
  exact finds_fulfil component (component.tasks schema) []

/-- A block refuses operations for their names, not for a component. -/
theorem finds_addOps (component : Component) (ops fragment : Entries Op) :
    CqlWorkload.Finds (addOps block component ops fragment) := by
  induction fragment generalizing ops with
  | nil => exact finds_ok ops
  | cons entry rest ih =>
      unfold addOps
      split
      · exact finds_error nofun
      · exact ih _

theorem finds_collect (schema : Schema) (components : List Component) (before : Entries Op) :
    Step.Finds (ctx.collect schema block before components) := by
  induction components generalizing before with
  | nil => exact .pure before
  | cons component rest ih =>
      exact (finds_generate schema component).bind fun fragment =>
        (Finds.ofExcept (finds_addOps component before fragment)).bind fun ops => ih ops

theorem finds_planBlock (schema : Schema) (components : List Component) :
    Step.Finds (ctx.planBlock schema block components) :=
  (finds_collect schema components []).bind fun _ => (Finds.report _).bind fun _ => .pure _

theorem finds_planAll (schema : Schema) (plan : Entries (List Component)) :
    Step.Finds (ctx.planAll schema plan) := by
  induction plan with
  | nil => exact .pure []
  | cons planned rest ih =>
      exact (finds_planBlock schema planned.2).bind fun made => ih.bind fun blocks => .pure _

theorem finds_compile (schema : Schema) (s : Session) :
    CqlWorkload.Finds (ctx.compile schema s).1 := by
  rw [compile, Step.prime_bind]
  exact (finds_planAll schema ctx.config.blockplan).bind
    (fun blocks _ => finds_ok _) _

end Context

/-! ## Tags -/

theorem Component.named_tag (component : Component) : named component.tag = .ok component := by
  cases component <;> rfl

namespace Context

variable {ctx : Context} {block : String}

theorem collectTags_tags (schema : Schema) (components : List Component)
    (before : Entries Op) :
    ctx.collectTags schema block before (components.map (·.tag)) =
      ctx.collect schema block before components := by
  induction components generalizing before with
  | nil => rfl
  | cons component rest ih =>
      have hfound : Step.ofExcept (Component.named component.tag) = pure component := by
        rw [component.named_tag]
        rfl
      rw [List.map_cons, collectTags, collect, hfound]
      simp only [← ih]
      rfl

/-- **Components given by their tags.** The block is that of the components. -/
theorem planTags_tags (schema : Schema) (components : List Component) :
    ctx.planTags schema block (components.map (·.tag)) =
      ctx.planBlock schema block components := by
  rw [planTags, planBlock, collectTags_tags, List.length_map]

end Context

/-! ## Transformers -/

namespace Transformer

theorem finds_isListed (name : String) (listed : Value) : Finds (isListed name listed) := by
  cases listed with
  | text | list | map => exact finds_ok _
  | _ => exact finds_error nofun

theorem finds_overrideAll (value : Value) (listed : Option Value) (keyspaces : List Keyspace) :
    Finds (overrideAll value listed keyspaces).1 := by
  have hchosen (name : String) : Finds (isChosen listed name) := by
    cases listed with
    | none => exact finds_ok true
    | some listed => exact finds_isListed name listed
  have hone (k : Keyspace) : Finds (overrideOne value k).1 := by
    unfold overrideOne
    split
    next fault _ => exact finds_error (by cases fault <;> nofun)
    · exact finds_ok _
  induction keyspaces with
  | nil => exact finds_ok []
  | cons k rest ih =>
      unfold overrideAll
      split
      next failure hf => exact finds_error (hchosen _ failure hf)
      next chosen _ =>
        split
        next failure log hf =>
          refine finds_error ?_
          cases chosen with
          | false => cases hf
          | true => exact hone k failure (congrArg Prod.fst hf)
        · split
          next failure more hf => exact finds_error (ih failure (congrArg Prod.fst hf))
          · exact finds_ok _

theorem finds_withCounts (tables : List Table) : Finds (withCounts tables) := by
  have hcounts (t : Table) : Finds (countsOf t) := by
    unfold countsOf
    split
    · split
      next failure hf => exact finds_error (Statistic.finds_numeric _ _ _ failure hf)
      · split
        next failure hf => exact finds_error (Statistic.finds_numeric _ _ _ failure hf)
        · exact finds_ok _
    · exact finds_ok none
  induction tables with
  | nil => exact finds_ok []
  | cons t rest ih =>
      unfold withCounts
      split
      next failure hf => exact finds_error (hcounts t failure hf)
      · split
        next failure hf => exact finds_error (ih failure hf)
        · exact finds_ok _

theorem finds_apply (transformer : Transformer) (s : Schema) :
    Finds (transformer.apply s).1 := by
  cases transformer with
  | keyspaceFilter included excluded => exact finds_ok _
  | replication value listed => exact (finds_overrideAll value listed s.keyspaces).map _
  | ratios =>
      rw [apply, applyRatios]
      split
      next failure hf => exact finds_error (finds_withCounts s.tables failure hf)
      · exact finds_ok _
  | clearing => exact finds_ok _

theorem finds_applyAll (transformers : List Transformer) (s : Schema) :
    Finds (applyAll transformers s).1 := by
  induction transformers generalizing s with
  | nil => exact finds_ok s
  | cons transformer rest ih =>
      rw [applyAll_cons]
      exact (transformer.finds_apply s).bind ih

end Transformer

theorem Catalog.finds_getAll (catalog : Catalog) (specs : List TransformerSpec) :
    Finds (catalog.getAll specs) := by
  have hget (name : String) (settings : Entries Value) : Finds (catalog.get name settings) := by
    unfold get
    split
    · exact finds_error nofun
    next kind _ =>
      cases build kind settings with
      | error misfit =>
          refine finds_of_category fun failure h => ?_
          cases h
          rcases Failure.category_ofMisfit name misfit with hc | hc | hc <;> simp [hc]
      | ok transformer => exact finds_ok _
  induction specs with
  | nil => exact finds_ok []
  | cons spec rest ih =>
      rw [getAll_cons]
      exact (hget _ _).bind fun transformer => ih.bind fun transformers => finds_ok _

/-! ## Compiles -/

theorem Workload.finds_generate (s : Schema) (c : Config) : Finds (Workload.generate s c).1 := by
  rcases Workload.generate_cases (s := s) (c := c) rfl with
    ⟨failure, hcreate, hfailure⟩ | ⟨ctx, start, last, hcreate, hrun⟩
  · have hfound : Finds (Context.create c) :=
      finds_of_category fun failure h => by
        rcases Context.category_of_create h with hc | hc | hc <;> simp [hc]
    rw [hfailure]
    exact finds_error (hfound failure hcreate)
  · have hcompile := ctx.finds_compile s start
    rw [hrun] at hcompile
    exact hcompile

/-- **Every lookup of a compile finds what it looks for.** -/
theorem Workload.finds_compile (s : Schema) (c : Config) : Finds (Workload.compile s c).1 := by
  rw [Workload.compile_eq]
  exact (Catalog.builtIn.finds_getAll c.transformers).bind fun transformers =>
    (Transformer.finds_applyAll transformers s).bind fun made => Workload.finds_generate made c

end CqlWorkload
