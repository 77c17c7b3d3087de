import CqlWorkload.Proofs.Config.Validity
import CqlWorkload.Proofs.Workload.Run

/-!
# Compiled workloads

What a compile that returns a workload has done, in terms of the schema and the
configuration alone (`Compiled`): the blocks hold the operations of the tasks,
and the bindings are those that the needs of all statements have accumulated.

**Bindings.** A name of a binding was issued for one column in one role, and the
column and the role settle the recipe.  So the bindings have different names as
well as different recipes, and the table of bindings loses none of them.
-/

namespace CqlWorkload

namespace Config

def libraries (c : Config) : List Library :=
  match Context.create c with
  | .ok (ctx, _) => ctx.libraries
  | .error _ => []

/-- The libraries come from the type bindings, if the naming template can be read. -/
theorem libraries_congr {a b : Config} (ht : a.namingTemplate = b.namingTemplate)
    (hb : a.typeBindings = b.typeBindings) : a.libraries = b.libraries := by
  unfold libraries Context.create
  rw [ht, hb]
  cases Template.read b.namingTemplate with
  | error fault => rfl
  | ok t =>
      by_cases he : b.typeBindings.isEmpty = true
      · simp only [he, if_true]
      · simp only [he, Bool.false_eq_true, if_false]
        cases Library.ofPatterns "type_bindings"
          (b.typeBindings.map fun entry => (entry.1, some entry.2)) <;> rfl

/-- What the naming template makes of an element in the role that hints give it. -/
def nameOf (c : Config) (e : Element) (hints : List (String × String)) : String :=
  match Template.read c.namingTemplate with
  | .ok t => t.nameOf e hints
  | .error _ => ""

end Config

theorem Context.create_eq_ok {c : Config} {ctx : Context} {s : Session}
    (h : Context.create c = .ok (ctx, s)) :
    ctx.config = c ∧ ctx.libraries = c.libraries ∧ s.bindings = [] ∧
      ∃ t, Template.read c.namingTemplate = .ok t ∧ s.registry = Registry.start t := by
  have hl : ctx.libraries = c.libraries := by rw [Config.libraries, h]
  unfold create at h
  split at h
  · cases h
  next t ht =>
    dsimp only at h
    split at h
    · cases h
      exact ⟨rfl, hl, rfl, t, ht, rfl⟩
    · split at h
      · cases h
      · cases h
        exact ⟨rfl, hl, rfl, t, ht, rfl⟩

/-- A pattern is refused for its form, or for a number or a value in it. -/
theorem Failure.category_ofPattern (fault : Pattern.Fault) {ofForm : Pattern.Fault → Failure}
    (h : (ofForm fault).category = .configuration) :
    (ofPattern fault ofForm).category = .configuration ∨
      (ofPattern fault ofForm).category = .overflow ∨
      (ofPattern fault ofForm).category = .value := by
  unfold ofPattern
  cases hkind : fault.cause.kind with
  | form => exact Or.inl h
  | overflow => exact Or.inr (Or.inl (by simp [category, hkind]))
  | value => exact Or.inr (Or.inr (by simp [category, hkind]))

theorem Failure.category_ofMisfit (name : String) (misfit : Misfit) :
    (ofMisfit name misfit).category = .configuration ∨
      (ofMisfit name misfit).category = .overflow ∨
      (ofMisfit name misfit).category = .value := by
  cases misfit with
  | badPattern fault =>
      rw [ofMisfit]
      exact category_ofPattern fault rfl
  | _ => exact Or.inl rfl

theorem Context.category_of_create {c : Config} {m : Matcher} {failure : Failure}
    (h : create c m = .error failure) : failure.category = .configuration ∨
      failure.category = .overflow ∨ failure.category = .value := by
  unfold create at h
  split at h
  · cases h
    exact Or.inl rfl
  · dsimp only at h
    split at h
    · cases h
    · split at h <;> cases h
      exact Failure.category_ofPattern _ rfl

/-- A compile ends as its steps do, unless its configuration has no context. -/
theorem Workload.generate_cases {s : Schema} {c : Config} {found : Except Failure Workload}
    (h : (Workload.generate s c).1 = found) :
    (∃ failure, Context.create c = .error failure ∧ found = .error failure) ∨
      ∃ ctx start last, Context.create c = .ok (ctx, start) ∧
        ctx.compile s start = (found, last) := by
  cases hcreate : Context.create c with
  | error failure =>
      rw [generate, hcreate] at h
      exact Or.inl ⟨failure, rfl, h.symm⟩
  | ok started =>
      obtain ⟨ctx, start⟩ := started
      rw [generate, hcreate] at h
      exact Or.inr ⟨ctx, start, (ctx.compile s start).2, rfl, Prod.ext h rfl⟩

/-- What a compile has done that ended in a session with a workload. -/
structure Workload.Compiled (s : Schema) (c : Config) (ctx : Context) (last : Session)
    (w : Workload) : Prop where
  config : ctx.config = c
  libraries : ctx.libraries = c.libraries
  named : ∀ e hints, last.registry.template.nameOf e hints = c.nameOf e hints
  declared : ∀ name, last.registry.declarers name =
    (Registry.owners s).filter (·.name == name)
  admitted : ∀ name owner, last.registry.issued.get? name = some owner →
    last.registry.Admits name owner
  accumulated : last.bindings =
    Binding.accumulate c.libraries last.registry.template [] (c.needs s)
  bound : ∀ need, need ∈ c.needs s → need.IsBoundIn c.libraries last.bindings
  origins : ∀ b, b ∈ last.bindings →
    ∃ need, Binding.firstNeed? c.libraries (c.needs s) b = some need ∧
      need.Originates c.libraries last.registry b
  bindings : w.bindings = Binding.table last.bindings
  blocks : List.Forall₂ (ctx.Planned s last) c.blockplan w.blocks

/-- **A compile that returns has carried out its plan.** -/
theorem Workload.generate_eq_ok {s : Schema} {c : Config} {w : Workload} (hs : s.Sound)
    (h : (Workload.generate s c).1 = .ok w) : ∃ ctx last, w.Compiled s c ctx last := by
  rcases Workload.generate_cases h with
    ⟨failure, _, hfailure⟩ | ⟨ctx, start, last, hcreate, hrun⟩
  · cases hfailure
  obtain ⟨hconfig, hlibraries, hempty, t, ht, hstart⟩ := Context.create_eq_ok hcreate
  obtain ⟨_, primed, hprime, hrest⟩ := Step.bind_eq_ok.mp hrun
  obtain ⟨blocks, u, hblocks, hlast⟩ := Step.bind_eq_ok.mp hrest
  simp only [Step.prime, Prod.mk.injEq] at hprime
  obtain ⟨-, rfl⟩ := hprime
  simp only [Prod.mk.injEq, Except.ok.injEq] at hlast
  obtain ⟨rfl, rfl⟩ := hlast
  obtain ⟨hplanned, hgrows⟩ := Context.planAll_eq_ok hs hblocks
  have hprimed : ((Registry.start t).prime s).issued = [] ∧
      ((Registry.start t).prime s).template = t :=
    Registry.foldl_declare_issued (Registry.elements s) (Registry.start t)
  rw [hconfig] at hplanned hgrows
  rw [hstart] at hgrows
  refine ⟨ctx, _, hconfig, hlibraries, ?_, ?_, ?_, ?_, ?_, ?_, rfl, ?_⟩
  · intro e hints
    have htemplate : u.registry.template = t := hgrows.registry.template.trans hprimed.2
    rw [Config.nameOf, ht, htemplate]
  · intro name
    rw [← Registry.declarers_prime t s name, Registry.declarers, hgrows.registry.declared,
      Registry.declarers]
  · intro name owner hissued
    rw [hgrows.registry.admits_iff]
    rcases hgrows.registry.admitted name owner hissued with hn | hn
    · rw [hprimed.1] at hn
      cases hn
    · exact hn
  · have hb := hgrows.bindings
    rw [hempty, ← hgrows.registry.template, hlibraries] at hb
    exact hb
  · exact hlibraries ▸ hgrows.bound
  · intro b hb
    rcases hgrows.origins b hb with hm | ⟨-, ho⟩
    · rw [hempty] at hm
      cases hm
    · exact hlibraries ▸ ho
  · exact hplanned

end CqlWorkload
