import CqlWorkload.Proofs.Workload.Task
import CqlWorkload.Workload.Exporter

/-!
# Runs of a compile

A compile that succeeds has carried out every task of its plan, in order.  The
lemmas go up from one operation over the operations of a component, those of a
block, and the blocks of a plan to the whole compile (`Run`).

**Invariant.** A fulfilled task has a name that was issued for it and a statement
that shows the bindings of its needs.  Both outlast everything that comes later
(`Fulfilled.later`), because sessions only grow.
-/

namespace CqlWorkload

open Session

/-! ## Failures -/

theorem Failure.category_of_whole {found : Except Double.NotWhole Int} {failure : Failure}
    (h : whole found = .error failure) :
    failure.category = .value ∨ failure.category = .overflow := by
  rcases found with fault | n
  · cases h
    cases fault
    · exact Or.inr rfl
    · exact Or.inl rfl
  · cases h

theorem Statistic.category_of_numeric {stats : Entries Statistic} {name owner : String}
    {failure : Failure} (h : numeric stats name owner = .error failure) :
    failure.category = .statistic ∨ failure.category = .value := by
  unfold numeric at h
  split at h
  · cases h
    exact Or.inl rfl
  · split at h
    · cases h
      exact Or.inr rfl
    · split at h <;> cases h
      exact Or.inl rfl

/-- A statement is refused for its slots. -/
theorem Statement.category_of_text {statement : Statement} {failure : Failure}
    (h : statement.text = .error failure) : failure.category = .value := by
  unfold text at h
  split at h <;> cases h
  rfl

theorem Context.replicationBody_eq_ok_iff {k : Keyspace} {body : String} :
    replicationBody k = .ok body ↔ Replication.body? k.replication = some body := by
  rw [Replication.body?_eq_some_iff, replicationBody]
  cases Replication.body k.replication <;> simp [Except.mapError]

theorem Context.category_of_replicationBody {k : Keyspace} {failure : Failure}
    (h : replicationBody k = .error failure) :
    failure.category = .attribute ∨ failure.category = .value := by
  unfold replicationBody at h
  cases hbody : Replication.body k.replication with
  | ok body =>
      rw [hbody] at h
      cases h
  | error fault =>
      rw [hbody] at h
      cases h
      cases fault
      · exact Or.inl rfl
      · exact Or.inr rfl

/-! ## One task -/

namespace Task

/-- An operation that carries out a task over given bindings. -/
structure Yields (c : Config) (bound : Need → Binding) (task : Task) (op : Op) : Prop where
  form : op.form = task.form
  kind : op.kind = task.kind
  statement : op.statement = (task.statement c.partitionMultiplier bound).render
  faultless : (task.statement c.partitionMultiplier bound).fault? = none
  timeout : op.timeout = some (c.timeouts.get task.kind)
  ratio : task.ratio = .ok op.ratio

variable {ctx : Context} {block : String} {task : Task} {s t : Session} {found : Option Op}

theorem yields_of_opOf (task : Task) {bound : Need → Binding}
    (h : ctx.opOf task.form task.kind (task.statement ctx.config.partitionMultiplier bound)
      task.ratio s = (.ok found, t)) :
    s = t ∧ ∃ op, found = some op ∧ task.Yields ctx.config bound op := by
  simp only [Context.opOf, Context.timeout_eq, Step.bind_eq_ok, Step.ofExcept_eq_ok,
    Step.pure_eq_ok] at h
  obtain ⟨text, _, ⟨htext, rfl⟩, timeout, _, ⟨htimeout, rfl⟩, ratio, _, ⟨hratio, rfl⟩, rfl, rfl⟩ := h
  cases htimeout
  unfold Statement.text at htext
  split at htext
  · cases htext
  next hfault =>
    cases htext
    exact ⟨rfl, _, rfl, rfl, rfl, rfl, hfault, rfl, hratio⟩

/-- What became of a task: it was left out, or it yielded an operation. -/
inductive Outcome (ctx : Context) (task : Task) (s t : Session) : Option Op → Prop
  | leftOut (applies : task.applies ctx.config = false) (grows : Grows ctx.libraries [] s t) :
    Outcome ctx task s t none
  | done {op : Op} (applies : task.applies ctx.config = true)
    (grows : Grows ctx.libraries (task.needs ctx.config.partitionMultiplier) s t)
    (yields : task.Yields ctx.config (Binding.boundIn ctx.libraries t.bindings) op) :
    Outcome ctx task s t (some op)

/-- A step that only takes notes may come before. -/
theorem Outcome.after {u : Session} (h : Outcome ctx task u t found)
    (hg : Grows ctx.libraries [] s u) : Outcome ctx task s t found := by
  cases h with
  | leftOut applies grows => exact .leftOut applies (hg.trans grows)
  | done applies grows yields => exact .done applies (hg.trans grows) yields

/-- A note that is taken on a condition changes nothing but the log. -/
theorem grows_noted {α : Type} {p : Prop} [Decidable p] {note : Log} {m : Step α} {a : α}
    (libraries : List Library)
    (h : (if p then do Step.report note; m else m) s = (.ok a, t)) :
    ∃ u, Grows libraries [] s u ∧ m u = (.ok a, t) := by
  split at h
  · simp only [Step.bind_eq_ok] at h
    obtain ⟨_, u, hreport, h⟩ := h
    exact ⟨u, grows_report _ hreport, h⟩
  · exact ⟨s, Grows.refl s, h⟩

theorem outcome_of_simpleOp (task : Task) (ha : task.applies ctx.config = true)
    (hn : task.needs ctx.config.partitionMultiplier = [])
    (h : ctx.opOf task.form task.kind (task.statement ctx.config.partitionMultiplier
      (Binding.boundIn ctx.libraries s.bindings)) task.ratio s = (.ok found, t)) :
    Outcome ctx task s t found := by
  obtain ⟨rfl, op, rfl, hy⟩ := yields_of_opOf task h
  exact .done ha (hn ▸ Grows.refl s) hy

theorem createKeyspace_eq_ok {k : Keyspace}
    (h : ctx.createKeyspace k s = (.ok found, t)) :
    Outcome ctx (.createKeyspace k) s t found := by
  simp only [Context.createKeyspace, Step.bind_eq_ok, Step.ofExcept_eq_ok] at h
  obtain ⟨body, _, ⟨hbody, rfl⟩, h⟩ := h
  refine outcome_of_simpleOp (.createKeyspace k) rfl rfl ?_
  simp only [statement, Context.replicationBody_eq_ok_iff.mp hbody, Option.getD_some]
  exact h

/-- A created table is left out exactly when it is elided. -/
theorem applies_of_isElided {table : Table} {elided : Bool}
    (h : ctx.isElided table = .ok elided) :
    (Task.createTable table).applies ctx.config = !elided := by
  unfold Context.isElided at h
  split at h
  next he =>
    cases hr : table.totalRatio with
    | error failure =>
        rw [hr] at h
        cases h
    | ok n =>
        rw [hr] at h
        cases h
        simp [applies, he, hr, Except.toOption]
  next he =>
    cases h
    simp [applies, he]

theorem createTable_eq_ok {table : Table} (h : ctx.createTable block table s = (.ok found, t)) :
    Outcome ctx (.createTable table) s t found := by
  simp only [Context.createTable, Step.bind_eq_ok, Step.ofExcept_eq_ok] at h
  obtain ⟨elided, _, ⟨helided, rfl⟩, h⟩ := h
  have happlies := applies_of_isElided helided
  cases elided with
  | true =>
      simp only [if_true, Step.bind_eq_ok, Step.pure_eq_ok] at h
      obtain ⟨_, u, hreport, rfl, rfl⟩ := h
      exact .leftOut happlies (grows_report _ hreport)
  | false =>
      simp only [Bool.false_eq_true, if_false] at h
      obtain ⟨u, hgrows, h⟩ := grows_noted ctx.libraries h
      exact (outcome_of_simpleOp (.createTable table) happlies rfl h).after hgrows

theorem insertOp_eq_ok {table : Table} (h : ctx.insertOp table s = (.ok found, t)) :
    Outcome ctx (.insert table) s t found := by
  obtain ⟨u, hnoted, h⟩ := grows_noted ctx.libraries h
  simp only [Step.bind_eq_ok] at h
  obtain ⟨placeholders, v, hplaceholders, h⟩ := h
  obtain ⟨hgrows, rfl⟩ := Context.insertPlaceholders_eq_ok hplaceholders
  obtain ⟨rfl, op, rfl, hy⟩ := yields_of_opOf (.insert table) h
  exact (Outcome.done rfl hgrows hy).after hnoted

theorem updateOp_eq_ok {table : Table} (hkeyed : table.WellKeyed)
    (h : ctx.updateOp table s = (.ok found, t)) : Outcome ctx (.update table) s t found := by
  unfold Context.updateOp at h
  split at h
  next hempty =>
    simp only [Step.bind_eq_ok, Step.pure_eq_ok] at h
    obtain ⟨_, u, hreport, rfl, rfl⟩ := h
    exact .leftOut (by simp [applies, hempty]) (grows_report _ hreport)
  next hempty =>
    simp only [Step.bind_eq_ok] at h
    obtain ⟨assignments, u, hassignments, predicate, v, hpredicate, h⟩ := h
    obtain ⟨hfirst, rfl⟩ := Context.assignments_eq_ok hassignments
    obtain ⟨hsecond, rfl⟩ := Context.predicate_eq_ok hpredicate
    rw [hkeyed.predicateColumns_zero] at hsecond h
    -- The assignments are written before the predicate, whose bindings come later.
    rw [Context.assignmentsText_later hfirst hsecond] at h
    obtain ⟨rfl, op, rfl, hy⟩ := yields_of_opOf (.update table) h
    refine .done (by simp [applies, hempty]) ?_ hy
    rw [needs, List.map_append]
    exact hfirst.trans hsecond

/-- A query reads the columns that a count of keys stands for. -/
theorem queryOp_eq_ok {table : Table} {count : Int} {columns : List Column}
    (hform : task.form = .prepared) (hratio : task.ratio = some <$> table.readRatio)
    (happlies : task.applies ctx.config = true)
    (hneeds : task.needs ctx.config.partitionMultiplier = columns.map .plain)
    (hstatement : ∀ bound, task.statement ctx.config.partitionMultiplier bound =
      .select table.keyspace table.name (Context.predicateText bound columns)
        Statement.defaultLimit)
    (hcolumns : table.predicateColumns count = columns)
    (h : ctx.queryOp task.kind count table s = (.ok found, t)) :
    Outcome ctx task s t found := by
  simp only [Context.queryOp, Context.preparedOp, Step.bind_eq_ok] at h
  obtain ⟨predicate, u, hpredicate, h⟩ := h
  obtain ⟨hgrows, rfl⟩ := Context.predicate_eq_ok hpredicate
  rw [hcolumns] at hgrows h
  rw [← hstatement, ← hratio, ← hform] at h
  obtain ⟨rfl, op, rfl, hy⟩ := yields_of_opOf task h
  exact .done happlies (hneeds ▸ hgrows) hy

/-- **Carrying out a task.** -/
theorem make_eq_ok (hkeyed : task.IsKeyed) (h : task.make ctx block s = (.ok found, t)) :
    Outcome ctx task s t found := by
  cases task with
  | createKeyspace k => exact createKeyspace_eq_ok h
  | createTable table => exact createTable_eq_ok h
  | insert table => exact insertOp_eq_ok h
  | select table =>
      exact queryOp_eq_ok rfl rfl rfl rfl (fun _ => rfl)
        (hkeyed table rfl).predicateColumns_zero h
  | scan table =>
      exact queryOp_eq_ok rfl rfl rfl rfl (fun _ => rfl)
        (hkeyed table rfl).predicateColumns_partition h
  | update table => exact updateOp_eq_ok (hkeyed table rfl) h
  | createType | dropType | dropTable | dropKeyspace | truncate =>
      exact outcome_of_simpleOp _ rfl rfl h

/-! ## Fulfilled tasks -/

/-- A task whose operation has been entered in a session under its name. -/
structure Fulfilled (ctx : Context) (block : String) (t : Session) (task : Task)
    (entry : String × Op) : Prop where
  name : entry.1 = t.registry.template.nameOf task.element (task.hints block)
  issued : t.registry.issued.get? entry.1 = task.owner? block
  bound : ∀ need, need ∈ task.needs ctx.config.partitionMultiplier →
    need.IsBoundIn ctx.libraries t.bindings
  yields : task.Yields ctx.config (Binding.boundIn ctx.libraries t.bindings) entry.2

theorem Fulfilled.later {entry : String × Op} {needs : List Need} {u : Session}
    (h : task.Fulfilled ctx block t entry) (hg : Grows ctx.libraries needs t u) :
    task.Fulfilled ctx block u entry where
  name := by rw [hg.registry.template]; exact h.name
  issued := by
    obtain ⟨base, _, _, ho⟩ := exists_owner block task
    exact ho ▸ hg.registry.kept _ _ (ho ▸ h.issued)
  bound := fun need hn => hg.isBoundIn (h.bound need hn)
  yields := by
    have hs := task.statement_congr fun need hn => hg.boundIn_eq (h.bound need hn)
    obtain ⟨form, kind, statement, faultless, timeout, ratio⟩ := h.yields
    exact ⟨form, kind, hs ▸ statement, hs ▸ faultless, timeout, ratio⟩

end Task

namespace Context

variable {ctx : Context} {block : String} {s t : Session}

/-! ## The operations of a component -/

/-- A name that was issued, though for none of some tasks. -/
def IsOther (r : Registry) (block : String) (tasks : List Task) (name : String) : Prop :=
  ∃ owner, r.issued.get? name = some owner ∧
    ∀ task, task ∈ tasks → task.owner? block ≠ some owner

theorem IsOther.later {r later : Registry} {tasks : List Task} {task : Task} {name : String}
    (h : IsOther r block (task :: tasks) name) (hr : r.Extends later) :
    IsOther later block tasks name := by
  obtain ⟨owner, ho, hn⟩ := h
  exact ⟨owner, hr.kept _ _ ho, fun other hm => hn other (List.mem_cons_of_mem _ hm)⟩

theorem fulfilled_of_nameFor {task : Task} {op : Op} {name : String} {u v : Session}
    (hg : Grows ctx.libraries (task.needs ctx.config.partitionMultiplier) s u)
    (hy : task.Yields ctx.config (Binding.boundIn ctx.libraries u.bindings) op)
    (hname : Step.nameFor task.element (task.hints block) u = (.ok name, v)) :
    task.Fulfilled ctx block v (name, op) ∧
      Grows ctx.libraries (task.needs ctx.config.partitionMultiplier) s v := by
  obtain ⟨registry, hregistry, rfl⟩ := Step.nameFor_eq_ok.mp hname
  obtain ⟨owner, ho, rfl, hext, hissued⟩ := Registry.nameFor_eq_ok hregistry
  refine ⟨⟨?_, hissued.trans ho.symm, hg.bound, hy⟩, ?_⟩
  · rw [hext.template]
  · have hentered : Grows ctx.libraries [] u ⟨registry, u.bindings, u.log⟩ :=
      Grows.of_registry _ hext rfl
    simpa using hg.trans hentered

/-- **The operations of a component.** They are put behind those before them, one for
each task that applies, because no two of them have an owner in common. -/
theorem fulfil_eq_ok {component : Component} {tasks : List Task} {before ops : Entries Op}
    (h : fulfil component block before (tasks.map (·.request ctx block)) s = (.ok ops, t))
    (htasks : ∀ task, task ∈ tasks → task.component = component ∧ task.IsKeyed)
    (hdistinct : (tasks.map (·.owner? block)).Nodup)
    (hbefore : ∀ name, name ∈ before.keys → IsOther s.registry block tasks name) :
    ∃ made, ops = before ++ made ∧
      List.Forall₂ (Task.Fulfilled ctx block t) (tasks.filter (·.applies ctx.config)) made ∧
      Grows ctx.libraries ((tasks.filter (·.applies ctx.config)).flatMap
        (·.needs ctx.config.partitionMultiplier)) s t := by
  induction tasks generalizing before s with
  | nil =>
      obtain ⟨rfl, rfl⟩ := Step.pure_eq_ok.mp h
      exact ⟨[], (List.append_nil _).symm, .nil, Grows.refl _⟩
  | cons task rest ih =>
      simp only [List.map_cons, fulfil, Step.bind_eq_ok] at h
      obtain ⟨found, u, hmake, h⟩ := h
      obtain ⟨hcomponent, hkeyed⟩ := htasks task (List.mem_cons_self ..)
      have hrest := fun other hm => htasks other (List.mem_cons_of_mem task hm)
      obtain ⟨hnew, hdistinct⟩ := List.nodup_cons.mp hdistinct
      cases Task.make_eq_ok hkeyed hmake with
      | leftOut happlies hgrows =>
          obtain ⟨made, rfl, hmade, hlater⟩ := ih h hrest hdistinct
            fun name hn => (hbefore name hn).later hgrows.registry
          rw [List.filter_cons_of_neg (by simp [happlies])]
          exact ⟨made, rfl, hmade, hgrows.trans hlater⟩
      | @done op happlies hgrows hyields =>
          simp only [Step.bind_eq_ok] at h
          obtain ⟨name, v, hname, h⟩ := h
          rw [← hcomponent] at hname
          obtain ⟨hfulfilled, hgrows⟩ := fulfilled_of_nameFor hgrows hyields hname
          have hfree : name ∉ before.keys := by
            intro hm
            obtain ⟨owner, ho, hne⟩ := hbefore name hm
            have hsame := hfulfilled.issued.symm.trans (hgrows.registry.kept _ _ ho)
            exact hne task (List.mem_cons_self ..) hsame
          rw [Entries.put_of_not_mem op hfree] at h
          obtain ⟨made, rfl, hmade, hlater⟩ := ih h hrest hdistinct (by
            intro other hm
            rw [Entries.keys_append, List.mem_append] at hm
            rcases hm with hm | hm
            · exact (hbefore other hm).later hgrows.registry
            · obtain rfl : other = name := by simpa [Entries.keys] using hm
              obtain ⟨base, _, _, howner⟩ := Task.exists_owner block task
              refine ⟨_, hfulfilled.issued.trans howner, fun later hl he => hnew ?_⟩
              exact List.mem_map.mpr ⟨later, hl, he.trans howner.symm⟩)
          rw [List.filter_cons_of_pos happlies, List.flatMap_cons]
          exact ⟨(name, op) :: made, by simp, .cons (hfulfilled.later hlater) hmade,
            hgrows.trans hlater⟩

/-- A component of a sound schema carries out its tasks, whatever the session it starts in. -/
theorem generate_eq_ok {schema : Schema} (hsound : schema.Sound) {component : Component}
    {ops : Entries Op} (h : ctx.generate schema block component s = (.ok ops, t)) :
    List.Forall₂ (Task.Fulfilled ctx block t)
        ((component.tasks schema).filter (·.applies ctx.config)) ops ∧
      Grows ctx.libraries (((component.tasks schema).filter (·.applies ctx.config)).flatMap
        (·.needs ctx.config.partitionMultiplier)) s t := by
  rw [generate, requests_eq] at h
  obtain ⟨made, hmade, hfulfilled, hgrows⟩ := fulfil_eq_ok h
    (fun task hm => ⟨Component.component_of_mem_tasks hm, hsound.isKeyed hm⟩)
    (hsound.nodup_owners component block) (by simp [Entries.keys])
  rw [List.nil_append] at hmade
  subst hmade
  exact ⟨hfulfilled, hgrows⟩

/-! ## The operations of a block -/

theorem addOps_eq_ok {component : Component} {fragment before ops : Entries Op}
    (h : addOps block component before fragment = .ok ops) (hn : before.keys.Nodup) :
    ops = before ++ fragment ∧ ops.keys.Nodup := by
  induction fragment generalizing before with
  | nil =>
      cases h
      exact ⟨(List.append_nil _).symm, hn⟩
  | cons entry rest ih =>
      obtain ⟨name, op⟩ := entry
      unfold addOps at h
      split at h
      · cases h
      next hfree =>
        have hm : name ∉ before.keys := (Entries.get?_eq_none_iff name before).mp hfree
        obtain ⟨rfl, hnodup⟩ := ih h (Entries.nodup_keys_put name op hn)
        rw [Entries.put_of_not_mem op hm] at hnodup ⊢
        exact ⟨by simp, hnodup⟩

/-- Only a repeated name keeps operations from being added. -/
theorem category_of_addOps {component : Component} {ops fragment : Entries Op}
    {failure : Failure} (h : addOps block component ops fragment = .error failure) :
    failure.category = .blockPlan := by
  induction fragment generalizing ops with
  | nil => cases h
  | cons entry rest ih =>
      unfold addOps at h
      split at h
      · cases h
        rfl
      · exact ih h

/-- **The operations of a block.** Those of its components follow each other. -/
theorem collect_eq_ok {schema : Schema} (hsound : schema.Sound) {components : List Component}
    {before ops : Entries Op} (h : ctx.collect schema block before components s = (.ok ops, t))
    (hn : before.keys.Nodup) :
    ∃ made, ops = before ++ made ∧ ops.keys.Nodup ∧
      List.Forall₂ (Task.Fulfilled ctx block t) (ctx.config.tasks schema components) made ∧
      Grows ctx.libraries ((ctx.config.tasks schema components).flatMap
        (·.needs ctx.config.partitionMultiplier)) s t := by
  induction components generalizing before s with
  | nil =>
      obtain ⟨rfl, rfl⟩ := Step.pure_eq_ok.mp h
      exact ⟨[], (List.append_nil _).symm, hn, .nil, Grows.refl _⟩
  | cons component rest ih =>
      simp only [collect, Step.bind_eq_ok, Step.ofExcept_eq_ok] at h
      obtain ⟨fragment, u, hfragment, all, _, ⟨hall, rfl⟩, h⟩ := h
      obtain ⟨hfulfilled, hgrows⟩ := generate_eq_ok hsound hfragment
      obtain ⟨rfl, hnodup⟩ := addOps_eq_ok hall hn
      obtain ⟨others, rfl, hnodup, hothers, hlater⟩ := ih h hnodup
      refine ⟨fragment ++ others, by simp, hnodup, ?_, ?_⟩
      · rw [Config.tasks, List.flatMap_cons]
        exact List.rel_append (hfulfilled.imp fun _ _ hf => hf.later hlater) hothers
      · rw [Config.tasks, List.flatMap_cons, List.flatMap_append]
        exact hgrows.trans hlater

/-! ## The blocks of a plan -/

/-- A block that holds the operations of what was planned for it. -/
def Planned (ctx : Context) (schema : Schema) (t : Session)
    (planned : String × List Component) (block : String × Block) : Prop :=
  block.1 = planned.1 ∧ ∃ ops : Entries Op, block.2 = Block.ofOps ops ∧ ops.keys.Nodup ∧
    List.Forall₂ (Task.Fulfilled ctx planned.1 t) (ctx.config.tasks schema planned.2) ops

theorem Planned.later {schema : Schema} {planned : String × List Component}
    {block : String × Block} {needs : List Need} {u : Session}
    (h : ctx.Planned schema t planned block) (hg : Grows ctx.libraries needs t u) :
    ctx.Planned schema u planned block := by
  obtain ⟨hname, ops, hblock, hnodup, hops⟩ := h
  exact ⟨hname, ops, hblock, hnodup, hops.imp fun _ _ hf => hf.later hg⟩

/-- **The blocks of a plan.** There is one for each planned block, in order. -/
theorem planAll_eq_ok {schema : Schema} (hsound : schema.Sound)
    {plan : Entries (List Component)} {blocks : Entries Block}
    (h : ctx.planAll schema plan s = (.ok blocks, t)) :
    List.Forall₂ (ctx.Planned schema t) plan blocks ∧
      Grows ctx.libraries (plan.flatMap fun planned =>
        (ctx.config.tasks schema planned.2).flatMap
          (·.needs ctx.config.partitionMultiplier)) s t := by
  induction plan generalizing blocks s with
  | nil =>
      obtain ⟨rfl, rfl⟩ := Step.pure_eq_ok.mp h
      exact ⟨.nil, Grows.refl _⟩
  | cons planned rest ih =>
      simp only [planAll, planBlock, finish, Step.bind_eq_ok, Step.pure_eq_ok] at h
      obtain ⟨block, u, ⟨ops, v, hops, _, w, hreport, rfl, rfl⟩, others, _, hothers, rfl, rfl⟩ :=
        h
      obtain ⟨made, hmade, hnodup, hfulfilled, hgrows⟩ :=
        collect_eq_ok hsound hops (by simp [Entries.keys])
      rw [List.nil_append] at hmade
      subst hmade
      obtain ⟨hrest, hlater⟩ := ih hothers
      have hnoted := (grows_report ctx.libraries hreport).trans hlater
      have hplanned : ctx.Planned schema v planned (planned.1, Block.ofOps ops) :=
        ⟨rfl, ops, rfl, hnodup, hfulfilled⟩
      exact ⟨.cons (hplanned.later hnoted) hrest, hgrows.trans hnoted⟩

end Context
end CqlWorkload
