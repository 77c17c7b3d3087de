import CqlWorkload.Proofs.Workload.Placeholders
import CqlWorkload.Proofs.Workload.StandardNames

/-!
# Compiles without collisions

A compile under the standard template never refuses a name for a schema whose
names are identifiers, in blocks with ordinary names (`Exporter.workload_no_collision`).

**Steps.** Every step of such a compile asks for ordinary names only, so it takes
a session with a tidy registry to such a session again, and whatever it may fail
with is no collision (`Step.IsTidy`).
-/

namespace CqlWorkload

open Text

/-! ## Failures that are no collisions -/

/-- A result that is no collision of names. -/
def NoCollision {α : Type} (found : Except Failure α) : Prop :=
  ∀ failure, found = .error failure → failure.category ≠ .nameCollision

section Results

variable {α β : Type}

theorem noCollision_ok (a : α) : NoCollision (.ok a : Except Failure α) := by
  intro failure h
  cases h

theorem noCollision_error {failure : Failure} (h : failure.category ≠ .nameCollision) :
    NoCollision (.error failure : Except Failure α) := by
  intro other ho
  cases ho
  exact h

theorem NoCollision.map {found : Except Failure α} (h : NoCollision found) (f : α → β) :
    NoCollision (f <$> found) := by
  cases found with
  | ok a => exact noCollision_ok (f a)
  | error failure => exact noCollision_error (h failure rfl)

end Results

theorem Failure.noCollision_whole (found : Except Double.NotWhole Int) :
    NoCollision (Failure.whole found) := by
  intro failure h
  rcases category_of_whole h with hc | hc <;> simp [hc]

theorem Statistic.noCollision_numeric (stats : Entries Statistic) (name owner : String) :
    NoCollision (numeric stats name owner) := by
  intro failure h
  rcases category_of_numeric h with hc | hc <;> simp [hc]

namespace Table

theorem noCollision_ratioFor (t : Table) (name : String) : NoCollision (t.ratioFor name) := by
  unfold ratioFor
  split
  · split
    next failure hf =>
      exact noCollision_error (Statistic.noCollision_numeric _ _ _ failure hf)
    · exact Failure.noCollision_whole _
  · exact noCollision_ok 1

theorem noCollision_totalRatio (t : Table) : NoCollision t.totalRatio := by
  unfold totalRatio
  split
  · split
    next failure hf => exact noCollision_error (t.noCollision_ratioFor _ failure hf)
    · split
      next failure hf => exact noCollision_error (t.noCollision_ratioFor _ failure hf)
      · exact noCollision_ok _
  · exact noCollision_ok 1

theorem noCollision_partitionModulo (t : Table) (multiplier : Double) :
    NoCollision (t.partitionModulo multiplier) := by
  unfold partitionModulo
  split
  next failure hf =>
    exact noCollision_error (Statistic.noCollision_numeric _ _ _ failure hf)
  · exact Failure.noCollision_whole _

end Table

/-! ## Steps -/

namespace Step

variable {α β : Type}

/-- A step that keeps the registry tidy and does not fail with a collision. -/
def IsTidy (m : Step α) : Prop :=
  ∀ s : Session, s.registry.Tidy → NoCollision (m s).1 ∧ (m s).2.registry.Tidy

theorem IsTidy.pure (a : α) : IsTidy (pure a : Step α) := fun _ h => ⟨noCollision_ok a, h⟩

theorem IsTidy.ofExcept {found : Except Failure α} (h : NoCollision found) :
    IsTidy (ofExcept found) :=
  fun _ hs => ⟨h, hs⟩

theorem IsTidy.report (entries : Log) : IsTidy (report entries) :=
  fun _ h => ⟨noCollision_ok (), h⟩

/-- Ordinary names are issued. -/
theorem IsTidy.nameFor {ask : Ask} (ha : ask.IsOrdinary) :
    IsTidy (nameFor ask.element ask.hints) := by
  intro s hs
  obtain ⟨name, later, hname, hlater⟩ := hs.nameFor ha
  rw [Step.nameFor, hname]
  exact ⟨noCollision_ok name, hlater⟩

theorem IsTidy.bind {m : Step α} {f : α → Step β} (hm : IsTidy m) (hf : ∀ a, IsTidy (f a)) :
    IsTidy (m >>= f) := by
  intro s hs
  obtain ⟨hfound, hlater⟩ := hm s hs
  rcases hrun : m s with ⟨found, u⟩
  rw [hrun] at hfound hlater
  cases found with
  | error failure =>
      rw [bind_of_error hrun]
      exact ⟨noCollision_error (hfound failure rfl), hlater⟩
  | ok a =>
      rw [bind_of_ok hrun]
      exact hf a u hlater

/-- A note that is taken on a condition does no harm. -/
theorem IsTidy.noted {p : Prop} [Decidable p] {m : Step α} (note : Log) (hm : IsTidy m) :
    IsTidy (if p then do Step.report note; m else m) := by
  split
  · exact (IsTidy.report note).bind fun _ => hm
  · exact hm

end Step

open Step

/-! ## Bindings -/

/-- A column that belongs to a table and is called by identifiers. -/
def Column.IsOrdinary (c : Column) : Prop := c.IsBound ∧ (Element.column c).IsOrdinary

namespace Context

variable {ctx : Context}

theorem isTidy_bind {need : Need} (hc : need.column.IsOrdinary) :
    IsTidy (ctx.bind need.column need.modifier need.hints) := by
  have hrecipe : NoCollision (Binding.recipeFor ctx.libraries need.column) := by
    unfold Binding.recipeFor
    split
    · exact noCollision_ok _
    · exact noCollision_error nofun
  have hexisting : ∀ recipe, IsTidy (existing recipe) := fun _ _ h => ⟨noCollision_ok _, h⟩
  refine (IsTidy.ofExcept hrecipe).bind fun base => (hexisting _).bind fun found => ?_
  cases found with
  | some b => exact .pure b
  | none =>
      have hname : IsTidy (Step.nameFor (.column need.column) need.hints) :=
        @IsTidy.nameFor (.binding need) hc
      exact hname.bind fun name _ h => ⟨noCollision_ok _, h⟩

theorem isTidy_bindPlain {c : Column} (hc : c.IsOrdinary) : IsTidy (ctx.bindPlain c) :=
  @isTidy_bind ctx (.plain c) hc

theorem isTidy_insertBinding (t : Table) {c : Column} (hc : c.IsOrdinary) :
    IsTidy (ctx.insertBinding t c) := by
  unfold insertBinding
  split
  · rw [bindDivided_eq]
    split
    · exact isTidy_bindPlain hc
    · refine (IsTidy.ofExcept (t.noCollision_partitionModulo _)).bind fun modulo => ?_
      split
      · exact (IsTidy.report _).bind fun _ => isTidy_bindPlain hc
      · exact (IsTidy.report _).bind fun _ =>
          @isTidy_bind ctx ⟨c, some (Modulus.quantize modulo.toNat 1)⟩ hc
  · exact isTidy_bindPlain hc

theorem isTidy_bindEach {one : Column → Step Binding} {write : Column → Binding → String}
    {columns : List Column} (hone : ∀ c, c ∈ columns → IsTidy (one c)) :
    IsTidy (bindEach one write columns) := by
  induction columns with
  | nil => exact .pure []
  | cons c rest ih =>
      have hc := hone c (List.mem_cons_self ..)
      have hrest := ih fun other hm => hone other (List.mem_cons_of_mem c hm)
      exact hc.bind fun b => hrest.bind fun texts => .pure _

/-! ## Statements -/

variable {t : Table} (hcolumns : ∀ c, c ∈ t.columns → c.IsOrdinary)

include hcolumns in
theorem isTidy_predicate (count : Int) : IsTidy (ctx.predicate t count) := by
  have hkeys : ∀ c, c ∈ t.predicateColumns count → IsTidy (ctx.bindPlain c) := fun c hc =>
    isTidy_bindPlain (hcolumns c (Table.mem_columns_of_mem_keyColumns (List.mem_of_mem_take hc)))
  unfold predicate
  rw [eachBound_eq_bindEach]
  exact (IsTidy.report _).bind fun _ => (isTidy_bindEach hkeys).bind fun clauses => .pure _

include hcolumns in
theorem isTidy_assignments : IsTidy (ctx.assignments t) := by
  have hothers : ∀ c, c ∈ t.nonKeyColumns → IsTidy (ctx.bindPlain c) := fun c hc =>
    isTidy_bindPlain (hcolumns c (Table.mem_columns_of_mem_nonKeyColumns hc))
  unfold assignments
  rw [eachBound_eq_bindEach]
  exact (isTidy_bindEach hothers).bind fun parts => .pure _

theorem isTidy_opOf (form : Form) (kind : TimeoutKind) (statement : Statement)
    {ratio : Except Failure (Option Int)} (hr : NoCollision ratio) :
    IsTidy (ctx.opOf form kind statement ratio) := by
  have htext : NoCollision statement.text := by
    intro failure h
    rw [Statement.category_of_text h]
    nofun
  have htimeout : NoCollision (ctx.timeout kind) := by
    rw [timeout_eq]
    exact noCollision_ok _
  exact (IsTidy.ofExcept htext).bind fun text => (IsTidy.ofExcept htimeout).bind fun timeout =>
    (IsTidy.ofExcept hr).bind fun ratio => .pure _

theorem isTidy_simpleOp (kind : TimeoutKind) (statement : Statement) :
    IsTidy (ctx.simpleOp kind statement) :=
  isTidy_opOf _ _ _ (noCollision_ok none)

theorem isTidy_preparedOp (kind : TimeoutKind) (statement : Statement) (t : Table)
    (name : String) : IsTidy (ctx.preparedOp kind statement (t.ratioFor name)) :=
  isTidy_opOf _ _ _ ((t.noCollision_ratioFor name).map some)

theorem isTidy_createKeyspace (k : Keyspace) : IsTidy (ctx.createKeyspace k) := by
  have hbody : NoCollision (replicationBody k) := by
    intro failure h
    rcases category_of_replicationBody h with hc | hc <;> rw [hc] <;> nofun
  exact (IsTidy.ofExcept hbody).bind fun body => isTidy_simpleOp _ _

theorem isTidy_createTable (block : String) (t : Table) : IsTidy (ctx.createTable block t) := by
  have helided : NoCollision (ctx.isElided t) := by
    unfold isElided
    split
    · exact t.noCollision_totalRatio.map _
    · exact noCollision_ok false
  refine (IsTidy.ofExcept helided).bind fun elided => ?_
  split
  · exact (IsTidy.report _).bind fun _ => .pure none
  · exact .noted _ (isTidy_simpleOp _ _)

include hcolumns in
theorem isTidy_insertOp : IsTidy (ctx.insertOp t) := by
  have hplaceholders : IsTidy (ctx.insertPlaceholders t t.columns) := by
    rw [insertPlaceholders_eq_bindEach]
    exact isTidy_bindEach fun c hc => isTidy_insertBinding t (hcolumns c hc)
  exact .noted _ (hplaceholders.bind fun placeholders => isTidy_preparedOp _ _ t _)

include hcolumns in
theorem isTidy_queryOp (kind : TimeoutKind) (count : Int) : IsTidy (ctx.queryOp kind count t) :=
  (isTidy_predicate hcolumns count).bind fun _ => isTidy_preparedOp _ _ t _

include hcolumns in
theorem isTidy_updateOp : IsTidy (ctx.updateOp t) := by
  unfold updateOp
  split
  · exact (IsTidy.report _).bind fun _ => .pure none
  · exact (isTidy_assignments hcolumns).bind fun assignments =>
      (isTidy_predicate hcolumns 0).bind fun predicate => isTidy_preparedOp _ _ t _

end Context

/-! ## Tasks -/

/-- A task about an element that is called by identifiers, and so are its columns. -/
structure Task.IsOrdinary (task : Task) : Prop where
  element : task.element.IsOrdinary
  columns : ∀ t, task.element = .table t → ∀ c, c ∈ t.columns → c.IsOrdinary

theorem Task.isTidy_make {ctx : Context} {block : String} {task : Task} (h : task.IsOrdinary) :
    IsTidy (task.make ctx block) := by
  cases task with
  | createKeyspace k => exact Context.isTidy_createKeyspace k
  | createTable t => exact Context.isTidy_createTable block t
  | insert t => exact Context.isTidy_insertOp (h.columns t rfl)
  | select t | scan t => exact Context.isTidy_queryOp (h.columns t rfl) _ _
  | update t => exact Context.isTidy_updateOp (h.columns t rfl)
  | createType | dropType | dropTable | dropKeyspace | truncate =>
      exact Context.isTidy_simpleOp _ _

namespace Context

variable {ctx : Context} {block : String}

theorem isTidy_fulfil (hb : IsBlockName block) {component : Component} {tasks : List Task}
    (htasks : ∀ task, task ∈ tasks → task.component = component ∧ task.IsOrdinary)
    (before : Entries Op) :
    IsTidy (fulfil component block before (tasks.map (·.request ctx block))) := by
  induction tasks generalizing before with
  | nil => exact .pure before
  | cons task rest ih =>
      obtain ⟨rfl, htask⟩ := htasks task (List.mem_cons_self ..)
      have hrest := ih fun other hm => htasks other (List.mem_cons_of_mem task hm)
      refine (Task.isTidy_make htask).bind fun found => ?_
      cases found with
      | none => exact hrest before
      | some op =>
          have hname : IsTidy (Step.nameFor task.element (task.hints block)) :=
            @IsTidy.nameFor (.op block task) ⟨hb, htask.element⟩
          exact hname.bind fun name => hrest _

theorem isTidy_generate (hb : IsBlockName block) {schema : Schema} {component : Component}
    (htasks : ∀ task, task ∈ component.tasks schema → task.IsOrdinary) :
    IsTidy (ctx.generate schema block component) := by
  rw [generate, requests_eq]
  exact isTidy_fulfil hb
    (fun task hm => ⟨Component.component_of_mem_tasks hm, htasks task hm⟩) []

theorem noCollision_addOps (component : Component) (ops fragment : Entries Op) :
    NoCollision (addOps block component ops fragment) := by
  intro failure h
  rw [category_of_addOps h]
  nofun

theorem noCollision_create (c : Config) : NoCollision (create c) := by
  intro failure h
  rcases category_of_create h with hc | hc | hc <;> rw [hc] <;> nofun

variable {schema : Schema}
  (htasks : ∀ (component : Component) task, task ∈ component.tasks schema → task.IsOrdinary)

include htasks in
theorem isTidy_collect (hb : IsBlockName block) (components : List Component)
    (before : Entries Op) : IsTidy (ctx.collect schema block before components) := by
  induction components generalizing before with
  | nil => exact .pure before
  | cons component rest ih =>
      exact (isTidy_generate hb (htasks component)).bind fun fragment =>
        (IsTidy.ofExcept (noCollision_addOps component before fragment)).bind fun ops => ih ops

include htasks in
theorem isTidy_planAll {plan : Entries (List Component)}
    (hb : ∀ block, block ∈ plan.keys → IsBlockName block) :
    IsTidy (ctx.planAll schema plan) := by
  induction plan with
  | nil => exact .pure []
  | cons planned rest ih =>
      obtain ⟨block, components⟩ := planned
      have hblock : IsTidy (ctx.planBlock schema block components) :=
        (isTidy_collect htasks (hb block (List.mem_cons_self ..)) components []).bind fun ops =>
          (IsTidy.report _).bind fun _ => .pure _
      have hrest := ih fun other hm => hb other (List.mem_cons_of_mem block hm)
      exact hblock.bind fun made => hrest.bind fun blocks => .pure _

include htasks in
/-- A compile of ordinary tasks ends in no collision, once its registry is primed. -/
theorem noCollision_compile (hb : ∀ block, block ∈ ctx.config.blockplan.keys → IsBlockName block)
    {s : Session} (hs : (s.registry.prime schema).Tidy) :
    NoCollision (ctx.compile schema s).1 := by
  have hplan : IsTidy (ctx.planAll schema ctx.config.blockplan) := isTidy_planAll htasks hb
  rw [compile, Step.prime_bind]
  refine (hplan.bind (fun blocks u h => ?_) _ hs).1
  exact ⟨noCollision_ok _, h⟩

end Context

/-! ## Schemas -/

/-- A schema whose keyspaces, types, tables and columns are called by identifiers. -/
structure Schema.IsOrdinary (s : Schema) : Prop where
  keyspaces : ∀ k, k ∈ s.keyspaces → IsIdentifier k.name
  types : ∀ t, t ∈ s.types → IsIdentifier t.keyspace ∧ IsIdentifier t.name
  tables : ∀ t, t ∈ s.tables → IsIdentifier t.keyspace ∧ IsIdentifier t.name ∧
    ∀ c, c ∈ t.columns → IsIdentifier c.name

instance (s : Schema) : Decidable s.IsOrdinary :=
  decidable_of_iff ((∀ k, k ∈ s.keyspaces → IsIdentifier k.name) ∧
      (∀ t, t ∈ s.types → IsIdentifier t.keyspace ∧ IsIdentifier t.name) ∧
      ∀ t, t ∈ s.tables → IsIdentifier t.keyspace ∧ IsIdentifier t.name ∧
        ∀ c, c ∈ t.columns → IsIdentifier c.name)
    ⟨fun h => ⟨h.1, h.2.1, h.2.2⟩, fun h => ⟨h.1, h.2, h.3⟩⟩

namespace Schema.IsOrdinary

variable {s : Schema}

theorem column (h : s.IsOrdinary) (hs : s.Sound) {t : Table} (ht : t ∈ s.tables) {c : Column}
    (hc : c ∈ t.columns) : c.IsOrdinary := by
  obtain ⟨hk, htable⟩ := (hs.tables t ht).column hc
  obtain ⟨hkeyspace, hname, hcolumns⟩ := h.tables t ht
  refine ⟨⟨_, _, hk, htable⟩, fun word hm => ?_⟩
  simp only [Element.words, Element.owner?, Owner.words, hk, htable, Option.map_some,
    Option.getD_some, Option.toList_some, List.mem_append, List.mem_singleton] at hm
  rcases hm with rfl | rfl | rfl
  · exact hkeyspace
  · exact hname
  · exact hcolumns c hc

theorem element (h : s.IsOrdinary) (hs : s.Sound) {e : Element} (he : e ∈ Registry.elements s) :
    e.IsOrdinary := by
  rcases Schema.Sound.mem_elements_cases he with
    ⟨k, hk, rfl⟩ | ⟨t, ht, rfl⟩ | ⟨t, ht, rfl⟩ | ⟨c, ⟨t, ht, hc⟩, rfl⟩
  · intro word hm
    rw [List.mem_singleton.mp hm]
    exact h.keyspaces k hk
  · intro word hm
    rcases List.mem_cons.mp hm with rfl | hm
    · exact (h.types t ht).1
    · rw [List.mem_singleton.mp hm]
      exact (h.types t ht).2
  · intro word hm
    rcases List.mem_cons.mp hm with rfl | hm
    · exact (h.tables t ht).1
    · rw [List.mem_singleton.mp hm]
      exact (h.tables t ht).2.1
  · exact (h.column hs ht hc).2

theorem task (h : s.IsOrdinary) (hs : s.Sound) {component : Component} {task : Task}
    (hm : task ∈ component.tasks s) : task.IsOrdinary where
  element := h.element hs (Schema.Sound.element_mem hm)
  columns := fun _ ht _ hc => h.column hs (Schema.Sound.mem_tables_of_mem_tasks hm ht) hc

/-- **The declared names are identifiers.** -/
theorem tidy_prime (h : s.IsOrdinary) (hs : s.Sound) {t : Template}
    (ht : t.pieces = Template.standardPieces) : ((Registry.start t).prime s).Tidy := by
  obtain ⟨hissued, htemplate⟩ :=
    Registry.foldl_declare_issued (Registry.elements s) (Registry.start t)
  refine ⟨?_, fun name hne => ?_, fun name owner hg => ?_⟩
  · rw [Registry.prime, htemplate]
    exact ht
  · rw [Registry.declarers_prime] at hne
    obtain ⟨owner, hm⟩ := List.exists_mem_of_ne_nil _ hne
    obtain ⟨howner, hname⟩ := List.mem_filter.mp hm
    obtain ⟨e, he, ho⟩ := List.mem_filterMap.mp howner
    have hword : owner.name ∈ e.words := by simp [Element.words, ho, Owner.words]
    exact (beq_iff_eq.mp hname) ▸ h.element hs he owner.name hword
  · rw [Registry.prime, hissued] at hg
    cases hg

end Schema.IsOrdinary

/-- Transformers give nothing another name. -/
theorem Transformer.isOrdinary_apply {transformer : Transformer} {s made : Schema}
    (h : s.IsOrdinary) (ha : (transformer.apply s).1 = .ok made) : made.IsOrdinary := by
  cases transformer with
  | keyspaceFilter included excluded =>
      cases ha
      exact ⟨fun k hk => h.keyspaces k (List.mem_filter.mp hk).1,
        fun t ht => h.types t (List.mem_filter.mp ht).1,
        fun t ht => h.tables t (List.mem_filter.mp ht).1⟩
  | replication value listed =>
      rcases ho : overrideAll value listed s.keyspaces with ⟨found, log⟩
      rw [apply, applyReplication, ho] at ha
      cases found with
      | error failure => cases ha
      | ok replaced =>
          cases ha
          have hnames := names_overrideAll (congrArg Prod.fst ho)
          refine ⟨fun k hk => ?_, h.types, h.tables⟩
          have hm : k.name ∈ s.keyspaces.map (·.name) :=
            hnames ▸ List.mem_map.mpr ⟨k, hk, rfl⟩
          obtain ⟨old, hold, hname⟩ := List.mem_map.mp hm
          exact hname ▸ h.keyspaces old hold
  | ratios =>
      rw [apply, applyRatios] at ha
      split at ha
      · cases ha
      next entries hentries =>
        cases ha
        refine ⟨h.keyspaces, h.types, fun t ht => ?_⟩
        obtain ⟨entry, hm, rfl⟩ := List.mem_map.mp ht
        obtain ⟨stats, hs⟩ := weigh_eq (total (entries.filterMap (·.2))) entry
        rw [hs]
        exact h.tables entry.1 (map_fst_withCounts hentries ▸ List.mem_map.mpr ⟨entry, hm, rfl⟩)
  | clearing =>
      cases ha
      constructor <;> intro _ hm <;> cases hm

/-- **No collisions.** Under the standard template a schema whose names are identifiers is
compiled for blocks with ordinary names without a collision of names. -/
theorem Exporter.workload_no_collision {s : Schema} {c : Config}
    {transformers : List Transformer} {e : Exporter} (hs : s.Valid) (ho : s.IsOrdinary)
    (ht : c.namingTemplate = Template.standard)
    (hb : ∀ block, block ∈ c.blockplan.keys → IsBlockName block)
    (he : (Exporter.ofTransformers s c transformers).1 = .ok e) : NoCollision e.workload.1 := by
  obtain ⟨hsound, rfl⟩ := Exporter.sound_ofTransformers hs.toSound he
  have hordinary : e.schema.IsOrdinary :=
    Transformer.preserved_applyAll Transformer.isOrdinary_apply ho (ofTransformers_eq_ok he).1
  rcases Workload.generate_cases (s := e.schema) (c := e.config) rfl with
    ⟨failure, hcreate, hfailure⟩ | ⟨ctx, start, last, hcreate, hrun⟩
  · rw [workload, hfailure]
    exact noCollision_error (Context.noCollision_create e.config failure hcreate)
  · obtain ⟨hconfig, _, _, t, hread, hstart⟩ := Context.create_eq_ok hcreate
    rw [ht, Template.read_standard] at hread
    cases hread
    have htidy := hordinary.tidy_prime hsound
      (t := ⟨Template.standard, Template.standardPieces⟩) rfl
    rw [← hstart] at htidy
    rw [← hconfig] at hb
    have hcompile := Context.noCollision_compile
      (fun _ _ hm => hordinary.task hsound hm) hb htidy
    rw [hrun] at hcompile
    exact hcompile

theorem Exporter.workload_no_collision_orders :
    Schema.orders.Valid ∧ Schema.orders.IsOrdinary ∧
      (∀ block, block ∈ Config.readsAndWrites.blockplan.keys → IsBlockName block) ∧
      NoCollision (Exporter.mk .orders .readsAndWrites).workload.1 := by
  have ho : Schema.orders.IsOrdinary := by decide +kernel
  have hb : ∀ block, block ∈ Config.readsAndWrites.blockplan.keys → IsBlockName block := by
    decide
  exact ⟨Schema.valid_orders, ho, hb, Exporter.workload_no_collision Schema.valid_orders ho rfl hb
    (Exporter.ofTransformers_nil ..)⟩

end CqlWorkload
