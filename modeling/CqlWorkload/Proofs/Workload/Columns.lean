import CqlWorkload.Proofs.Workload.Fitness

/-!
# Binding columns

A column cannot be bound when its type has no recipe or a name cannot be issued,
which are compile failures.  Only the number of partitions of a table makes the
binding of a column stuck (`stuck_insertBinding_iff`).

**Sequences.** Columns are bound one after the other, whatever is written with their
bindings (`exists_bindEach_iff`) and whatever was logged before (`BindsAll.of_agrees`).
Binding them is stuck exactly at a column that those before it lead to
(`stuck_bindEach_iff`).
-/

namespace CqlWorkload

open Step

/-! ## Names -/

theorem Registry.category_of_claim {r : Registry} {name : String} {owner : Owner}
    {failure : Failure} (h : r.claim name owner = .error failure) :
    failure.category = .nameCollision := by
  unfold claim at h
  dsimp only at h
  split at h
  · cases h
    rfl
  · split at h
    · split at h <;> cases h
      rfl
    · cases h

/-- A name is refused for the template, for another name, or for what is to be named. -/
theorem Registry.category_of_nameFor {r : Registry} {e : Element}
    {hints : List (String × String)} {failure : Failure}
    (h : r.nameFor e hints = .error failure) :
    failure.category = .configuration ∨ failure.category = .nameCollision ∨
      failure.category = .type ∧ e.owner? = none := by
  unfold nameFor at h
  split at h
  next hnone =>
    cases h
    exact Or.inr (Or.inr ⟨rfl, hnone⟩)
  next base _ =>
    dsimp only at h
    split at h
    · cases h
      exact Or.inl rfl
    · split at h
      next hclaim =>
        cases h
        exact Or.inr (Or.inl (category_of_claim hclaim))
      · cases h

theorem nameFor_eq_error {e : Element} {hints : List (String × String)} {failure : Failure}
    {s : Session} (h : (nameFor e hints s).1 = .error failure) :
    s.registry.nameFor e hints = .error failure := by
  unfold nameFor at h
  split at h
  next hname =>
    cases h
    exact hname
  · cases h

theorem neverStuck_nameFor {e : Element} {hints : List (String × String)}
    (h : e.owner?.isSome = true) : NeverStuck (nameFor e hints) := by
  intro s
  refine not_stuck_of_reported fun failure hf => ?_
  rcases Registry.category_of_nameFor (nameFor_eq_error hf) with hc | hc | ⟨_, hnone⟩
  · rw [Failure.Reported, Failure.isCompileFailure, hc]
  · rw [Failure.Reported, Failure.isCompileFailure, hc]
  · rw [hnone] at h
    cases h

namespace Context

variable {ctx : Context} {s t u : Session}

/-! ## Binding a column -/

theorem neverStuck_bind (c : Column) (modifier : String) (hints : List (String × String)) :
    NeverStuck (ctx.bind c modifier hints) := by
  have hrecipe : NeverStuck (Step.ofExcept (Binding.recipeFor ctx.libraries c)) := by
    intro s
    unfold Binding.recipeFor
    split
    · exact not_stuck_ok _
    · exact not_stuck_error rfl
  have hexisting : ∀ recipe, NeverStuck (existing recipe) := fun _ _ => not_stuck_ok _
  refine hrecipe.bind fun base => (hexisting _).bind fun found => ?_
  cases found with
  | some b => exact .pure b
  | none => exact (neverStuck_nameFor rfl).bind fun name _ => not_stuck_ok _

theorem ignoresLog_bind (c : Column) (modifier : String) (hints : List (String × String)) :
    IgnoresLog (ctx.bind c modifier hints) := by
  have hexisting : ∀ recipe, IgnoresLog (existing recipe) := by
    intro recipe s t h
    exact ⟨by rw [existing, existing, h.bindings], h⟩
  have henter : ∀ b, IgnoresLog (enter c b) := by
    intro b s t h
    exact ⟨rfl, h.registry, congrArg (· ++ [b]) h.bindings⟩
  refine (IgnoresLog.ofExcept _).bind fun base => (hexisting _).bind fun found => ?_
  cases found with
  | some b => exact .pure b
  | none => exact (IgnoresLog.nameFor _ _).bind fun name => henter _

theorem ignoresLog_bindPlain (c : Column) : IgnoresLog (ctx.bindPlain c) :=
  ignoresLog_bind c "" []

theorem ignoresLog_insertBinding (table : Table) (c : Column) :
    IgnoresLog (ctx.insertBinding table c) := by
  unfold insertBinding
  split
  · rw [bindDivided_eq]
    split
    · exact ignoresLog_bindPlain c
    · refine (IgnoresLog.ofExcept _).bind fun modulo => ?_
      split
      · exact (IgnoresLog.report _).bind fun _ => ignoresLog_bindPlain c
      · exact (IgnoresLog.report _).bind fun _ => ignoresLog_bind c _ _
  · exact ignoresLog_bindPlain c

/-- **Partitions.** Binding a column of an insert is stuck only for the last column of
the partition key, when the partitions are no finite number. -/
theorem stuck_insertBinding_iff {table : Table} {c : Column} :
    Stuck (ctx.insertBinding table c s).1 ↔ table.isLastPartitionKey c = true ∧
      table.Uncountable ctx.config.partitionMultiplier := by
  have hplain : NeverStuck (ctx.bindPlain c) := neverStuck_bind c "" []
  unfold insertBinding
  split
  next hlast =>
    rw [and_iff_right hlast]
    rw [bindDivided_eq]
    split
    next hstats => exact iff_of_false (hplain s) fun hu => by simp [hu.1] at hstats
    next hstats =>
      rw [← Table.stuck_partitionModulo_iff (by simpa using hstats)]
      refine stuck_bind_iff_left fun modulo => ?_
      split
      · exact (NeverStuck.report _).bind fun _ => hplain
      · exact (NeverStuck.report _).bind fun _ => neverStuck_bind c _ _
  next hlast => exact iff_of_false (hplain s) fun hu => hlast hu.1

/-! ## Binding columns one after the other -/

/-- Columns are bound one after the other, from one session to another. -/
inductive BindsAll (one : Column → Step Binding) : List Column → Session → Session → Prop
  | nil (s : Session) : BindsAll one [] s s
  | cons {c : Column} {rest : List Column} {b : Binding} {s t u : Session} :
      one c s = (.ok b, t) → BindsAll one rest t u → BindsAll one (c :: rest) s u

variable {one : Column → Step Binding} {write : Column → Binding → String}
  {columns : List Column}

theorem bindsAll_append_iff {first second : List Column} :
    BindsAll one (first ++ second) s u ↔
      ∃ t, BindsAll one first s t ∧ BindsAll one second t u := by
  induction first generalizing s with
  | nil =>
      constructor
      · exact fun h => ⟨s, .nil s, h⟩
      · rintro ⟨_, ⟨⟩, h⟩
        exact h
  | cons c rest ih =>
      constructor
      · rintro (_ | ⟨hb, h⟩)
        obtain ⟨t, hrest, hsecond⟩ := ih.mp h
        exact ⟨t, .cons hb hrest, hsecond⟩
      · rintro ⟨t, _ | ⟨hb, hrest⟩, hsecond⟩
        exact .cons hb (ih.mpr ⟨t, hrest, hsecond⟩)

theorem BindsAll.of_agrees (hone : ∀ c, IgnoresLog (one c)) (h : BindsAll one columns s t)
    (ha : s.Agrees u) : ∃ v, BindsAll one columns u v := by
  induction h generalizing u with
  | nil s => exact ⟨u, .nil u⟩
  | @cons c rest b s t last hb _ ih =>
      obtain ⟨hfound, hagrees⟩ := hone c ha
      rw [hb] at hfound hagrees
      obtain ⟨v, hv⟩ := ih hagrees
      have hother : one c u = (.ok b, (one c u).2) := Prod.ext hfound.symm rfl
      exact ⟨v, .cons hother hv⟩

theorem exists_bindsAll_congr (hone : ∀ c, IgnoresLog (one c)) (ha : s.Agrees u) :
    (∃ t, BindsAll one columns s t) ↔ ∃ v, BindsAll one columns u v := by
  constructor
  · exact fun ⟨_, h⟩ => h.of_agrees hone ha
  · exact fun ⟨_, h⟩ => h.of_agrees hone ha.symm

theorem exists_bindEach_iff (write : Column → Binding → String) :
    (∃ texts, bindEach one write columns s = (.ok texts, t)) ↔ BindsAll one columns s t := by
  induction columns generalizing s with
  | nil =>
      constructor
      · rintro ⟨_, h⟩
        obtain ⟨_, rfl⟩ := Step.pure_eq_ok.mp h
        exact .nil s
      · rintro ⟨⟩
        exact ⟨[], rfl⟩
  | cons c rest ih =>
      constructor
      · rintro ⟨_, h⟩
        simp only [bindEach, Step.bind_eq_ok, Step.pure_eq_ok] at h
        obtain ⟨b, u, hb, texts, _, hrest, _, rfl⟩ := h
        exact .cons hb (ih.mp ⟨texts, hrest⟩)
      · rintro (_ | ⟨hb, hrest⟩)
        obtain ⟨texts, htexts⟩ := ih.mpr hrest
        rw [bindEach]
        exact ⟨_, (Step.bind_of_ok hb).trans (Step.bind_of_ok htexts)⟩

theorem ignoresLog_bindEach (hone : ∀ c, IgnoresLog (one c)) :
    IgnoresLog (bindEach one write columns) := by
  induction columns with
  | nil => exact .pure []
  | cons c rest ih => exact (hone c).bind fun b => ih.bind fun texts => .pure _

/-- **Binding columns is stuck at a column** whose turn has come. -/
theorem stuck_bindEach_iff :
    Stuck (bindEach one write columns s).1 ↔ ∃ before c, before ++ [c] <+: columns ∧
      ∃ t, BindsAll one before s t ∧ Stuck (one c t).1 := by
  induction columns generalizing s with
  | nil => exact iff_of_false (not_stuck_ok _) (by simp)
  | cons c rest ih =>
      rw [exists_turn_cons_iff, bindEach, stuck_bind_iff]
      refine or_congr ⟨fun h => ⟨s, .nil s, h⟩, ?_⟩ ⟨?_, ?_⟩
      · rintro ⟨_, ⟨⟩, h⟩
        exact h
      · rintro ⟨b, t, hb, h⟩
        rw [stuck_bind_iff_left fun _ => .pure _] at h
        obtain ⟨before, d, hprefix, u, hu, hstuck⟩ := ih.mp h
        exact ⟨before, d, hprefix, u, .cons hb hu, hstuck⟩
      · rintro ⟨before, d, hprefix, u, _ | ⟨hb, hu⟩, hstuck⟩
        refine ⟨_, _, hb, ?_⟩
        rw [stuck_bind_iff_left fun _ => .pure _]
        exact ih.mpr ⟨before, d, hprefix, u, hu, hstuck⟩

/-! ## Parts of statements -/

theorem neverStuck_eachBound : NeverStuck (ctx.eachBound write columns) := by
  intro s
  rw [eachBound_eq_bindEach, stuck_bindEach_iff]
  rintro ⟨_, c, _, t, _, h⟩
  exact neverStuck_bind c "" [] t h

theorem neverStuck_predicate (table : Table) (count : Int) :
    NeverStuck (ctx.predicate table count) :=
  (NeverStuck.report _).bind fun _ => neverStuck_eachBound.bind fun _ => .pure _

theorem neverStuck_assignments (table : Table) : NeverStuck (ctx.assignments table) :=
  neverStuck_eachBound.bind fun _ => .pure _

/-- A predicate is written exactly when its columns are bound. -/
theorem exists_predicate_iff {table : Table} {count : Int} :
    (∃ text t, ctx.predicate table count s = (.ok text, t)) ↔
      ∃ t, BindsAll ctx.bindPlain (table.predicateColumns count) s t := by
  have hagrees : Session.Agrees { s with log := s.log ++ table.predicateLog count } s :=
    ⟨rfl, rfl⟩
  rw [← exists_bindsAll_congr ignoresLog_bindPlain hagrees]
  constructor
  · rintro ⟨_, t, h⟩
    simp only [predicate, Step.bind_eq_ok, Step.report_eq_ok, eachBound_eq_bindEach] at h
    obtain ⟨_, _, rfl, texts, u, htexts, _⟩ := h
    exact ⟨u, (exists_bindEach_iff equation).mp ⟨texts, htexts⟩⟩
  · rintro ⟨t, h⟩
    obtain ⟨texts, htexts⟩ := (exists_bindEach_iff equation).mpr h
    rw [← eachBound_eq_bindEach] at htexts
    exact ⟨_, t, Step.report_bind.trans (Step.bind_of_ok htexts)⟩

theorem exists_assignments_iff {table : Table} :
    (∃ text, ctx.assignments table s = (.ok text, t)) ↔
      BindsAll ctx.bindPlain table.nonKeyColumns s t := by
  rw [← exists_bindEach_iff assignment, ← eachBound_eq_bindEach]
  constructor
  · rintro ⟨_, h⟩
    simp only [assignments, Step.bind_eq_ok, Step.pure_eq_ok] at h
    obtain ⟨texts, u, htexts, _, hu⟩ := h
    exact ⟨texts, hu ▸ htexts⟩
  · rintro ⟨texts, htexts⟩
    exact ⟨_, Step.bind_of_ok htexts⟩

end Context
end CqlWorkload
