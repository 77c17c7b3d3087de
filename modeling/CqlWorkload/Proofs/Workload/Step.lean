import CqlWorkload.Workload.Session

/-!
# Runs of steps

A run of steps that succeeds is a run of each of them: the lemmas of the first
part take such a run apart.

**Stuck steps.** A step is stuck when it fails with something other than a compile
failure.  A sequence is stuck exactly when one of its parts is, in a session that
the parts before it lead to (`stuck_bind_iff`).

**The log.** What was logged has no influence on what a step yields.
-/

namespace CqlWorkload

/-- A failure that a compile is refused with. -/
abbrev Failure.Reported (failure : Failure) : Prop := failure.isCompileFailure = true

/-- A result that is an error of some kind. -/
def FailsBy {ε α : Type} (p : ε → Prop) (found : Except ε α) : Prop :=
  ∃ fault, found = .error fault ∧ p fault

/-- A result that is neither a value nor a compile failure. -/
def Stuck {α : Type} (found : Except Failure α) : Prop :=
  FailsBy (fun failure => failure.isCompileFailure = false) found

/-- The items of a list come to their turns one after the other: the first one at
once, and the others behind it. -/
theorem exists_turn_cons_iff {α : Type} {first : α} {rest : List α}
    {p : List α → α → Prop} :
    (∃ before a, before ++ [a] <+: first :: rest ∧ p before a) ↔
      p [] first ∨ ∃ before a, before ++ [a] <+: rest ∧ p (first :: before) a := by
  constructor
  · rintro ⟨before, a, h, hp⟩
    cases before with
    | nil =>
        obtain rfl : a = first := by simpa using h
        exact Or.inl hp
    | cons b before =>
        obtain ⟨rfl, hbefore⟩ := List.cons_prefix_cons.mp h
        exact Or.inr ⟨before, a, hbefore, hp⟩
  · rintro (hp | ⟨before, a, h, hp⟩)
    · exact ⟨[], first, by simp, hp⟩
    · exact ⟨first :: before, a, List.cons_prefix_cons.mpr ⟨rfl, h⟩, hp⟩

section Errors

variable {ε δ α β : Type} {p : ε → Prop}

theorem not_failsBy_ok (a : α) : ¬FailsBy p (.ok a) := by
  rintro ⟨fault, h, _⟩
  cases h

theorem failsBy_error_iff {fault : ε} : FailsBy p (.error fault : Except ε α) ↔ p fault := by
  constructor
  · rintro ⟨other, h, hp⟩
    cases h
    exact hp
  · exact fun hp => ⟨fault, rfl, hp⟩

theorem failsBy_map_iff (f : α → β) (found : Except ε α) :
    FailsBy p (f <$> found) ↔ FailsBy p found := by
  cases found with
  | error fault => exact failsBy_error_iff.trans failsBy_error_iff.symm
  | ok a => exact iff_of_false (not_failsBy_ok _) (not_failsBy_ok _)

theorem failsBy_mapError_iff {q : δ → Prop} {f : ε → δ} {found : Except ε α}
    (h : ∀ fault, q (f fault) ↔ p fault) : FailsBy q (found.mapError f) ↔ FailsBy p found := by
  cases found with
  | error fault => exact failsBy_error_iff.trans ((h fault).trans failsBy_error_iff.symm)
  | ok a => exact iff_of_false (not_failsBy_ok _) (not_failsBy_ok _)

theorem failsBy_bind_iff {found : Except ε α} {f : α → Except ε β} :
    FailsBy p (found >>= f) ↔ FailsBy p found ∨ ∃ a, found = .ok a ∧ FailsBy p (f a) := by
  cases found with
  | error fault =>
      have hnone : ¬∃ a, (.error fault : Except ε α) = .ok a ∧ FailsBy p (f a) := by simp
      rw [or_iff_left hnone]
      exact failsBy_error_iff.trans failsBy_error_iff.symm
  | ok a =>
      rw [or_iff_right (not_failsBy_ok a)]
      constructor
      · exact fun h => ⟨a, rfl, h⟩
      · rintro ⟨_, ⟨⟩, h⟩
        exact h

/-- A list of results fails at an item whose turn comes: all before it have results. -/
theorem failsBy_mapM_iff {f : α → Except ε β} {items : List α} :
    FailsBy p (items.mapM f) ↔ ∃ before a, before ++ [a] <+: items ∧
      (∀ other, other ∈ before → ∃ result, f other = .ok result) ∧ FailsBy p (f a) := by
  induction items with
  | nil => exact iff_of_false (not_failsBy_ok _) (by simp)
  | cons first rest ih =>
      have hrest (result : β) : FailsBy p (rest.mapM f >>= fun results =>
          pure (result :: results)) ↔ FailsBy p (rest.mapM f) :=
        failsBy_map_iff (result :: ·) (rest.mapM f)
      rw [exists_turn_cons_iff, List.mapM_cons, failsBy_bind_iff]
      refine or_congr (by simp) ?_
      simp only [List.forall_mem_cons, hrest, ih]
      constructor
      · rintro ⟨result, hresult, before, a, hprefix, hbefore, ha⟩
        exact ⟨before, a, hprefix, ⟨⟨result, hresult⟩, hbefore⟩, ha⟩
      · rintro ⟨before, a, hprefix, ⟨⟨result, hresult⟩, hbefore⟩, ha⟩
        exact ⟨result, hresult, before, a, hprefix, hbefore, ha⟩

end Errors

section Results

variable {α : Type}

theorem not_stuck_ok (a : α) : ¬Stuck (.ok a : Except Failure α) := not_failsBy_ok a

theorem stuck_error_iff {failure : Failure} :
    Stuck (.error failure : Except Failure α) ↔ failure.isCompileFailure = false :=
  failsBy_error_iff

theorem stuck_map_iff {β : Type} (f : α → β) (found : Except Failure α) :
    Stuck (f <$> found) ↔ Stuck found :=
  failsBy_map_iff f found

theorem not_stuck_error {failure : Failure} (h : failure.Reported) :
    ¬Stuck (.error failure : Except Failure α) := by
  rw [stuck_error_iff, h]
  exact Bool.noConfusion

theorem not_stuck_of_reported {found : Except Failure α}
    (h : ∀ failure, found = .error failure → failure.Reported) : ¬Stuck found := by
  rintro ⟨failure, hf, hs⟩
  rw [h failure hf] at hs
  cases hs

theorem not_stuck_iff (found : Except Failure α) :
    ¬Stuck found ↔ (∃ a, found = .ok a) ∨
      ∃ failure, found = .error failure ∧ failure.isCompileFailure = true := by
  cases found with
  | ok a => exact iff_of_true (not_stuck_ok a) (Or.inl ⟨a, rfl⟩)
  | error failure =>
      rw [stuck_error_iff, Bool.not_eq_false]
      constructor
      · exact fun hf => Or.inr ⟨failure, rfl, hf⟩
      · rintro (⟨a, h⟩ | ⟨other, h, hf⟩)
        · cases h
        · cases h
          exact hf

end Results

/-- The same names and bindings, whatever was logged. -/
structure Session.Agrees (s t : Session) : Prop where
  registry : s.registry = t.registry
  bindings : s.bindings = t.bindings

theorem Session.Agrees.symm {s t : Session} (h : s.Agrees t) : t.Agrees s :=
  ⟨h.registry.symm, h.bindings.symm⟩

namespace Step

variable {α β : Type} {s t : Session}

/-! ## Successful runs -/

theorem bind_of_ok {m : Step α} {f : α → Step β} {a : α} {u : Session}
    (h : m s = (.ok a, u)) : (m >>= f) s = f a u := by
  simp only [bind, h]

theorem bind_of_error {m : Step α} {f : α → Step β} {failure : Failure} {u : Session}
    (h : m s = (.error failure, u)) : (m >>= f) s = (.error failure, u) := by
  simp only [bind, h]

theorem bind_assoc {γ : Type} {m : Step α} {f : α → Step β} {g : β → Step γ} :
    (m >>= f) >>= g = m >>= fun a => f a >>= g := by
  funext s
  rcases hm : m s with ⟨found, u⟩
  cases found with
  | error failure => rw [bind_of_error (bind_of_error hm), bind_of_error hm]
  | ok a =>
      rw [bind_of_ok hm]
      simp only [bind, hm]

theorem bind_eq_ok {m : Step α} {f : α → Step β} {b : β} :
    (m >>= f) s = (.ok b, t) ↔ ∃ a u, m s = (.ok a, u) ∧ f a u = (.ok b, t) := by
  rcases hm : m s with ⟨found, u⟩
  cases found with
  | error failure =>
      rw [bind_of_error hm]
      simp
  | ok a =>
      rw [bind_of_ok hm]
      constructor
      · exact fun h => ⟨a, u, rfl, h⟩
      · rintro ⟨other, v, h, hf⟩
        cases h
        exact hf

theorem pure_eq_ok {a b : α} : (pure a : Step α) s = (.ok b, t) ↔ a = b ∧ s = t := by
  show ((.ok a, s) : Except Failure α × Session) = (.ok b, t) ↔ _
  simp

theorem ofExcept_eq_ok {found : Except Failure α} {a : α} :
    ofExcept found s = (.ok a, t) ↔ found = .ok a ∧ s = t := by
  simp [ofExcept]

theorem report_eq_ok {entries : Log} {u : Unit} :
    report entries s = (.ok u, t) ↔ { s with log := s.log ++ entries } = t := by
  simp [report]

theorem prime_bind {schema : Schema} {f : Unit → Step β} :
    (prime schema >>= f) s = f () (prime schema s).2 :=
  rfl

theorem report_bind {entries : Log} {f : Unit → Step β} :
    (report entries >>= f) s = f () { s with log := s.log ++ entries } :=
  rfl

theorem nameFor_eq_ok {element : Element} {hints : List (String × String)} {name : String} :
    nameFor element hints s = (.ok name, t) ↔
      ∃ registry, s.registry.nameFor element hints = .ok (name, registry) ∧
        { s with registry := registry } = t := by
  rcases hn : s.registry.nameFor element hints with failure | ⟨found, registry⟩
  · simp [nameFor, hn]
  · constructor
    · intro h
      simp only [nameFor, hn, Prod.mk.injEq, Except.ok.injEq] at h
      exact ⟨registry, by rw [h.1], h.2⟩
    · rintro ⟨other, he, rfl⟩
      cases he
      simp [nameFor, hn]

/-! ## Stuck steps -/

/-- A sequence is stuck in its first part, or in the second one after the first. -/
theorem stuck_bind_iff {m : Step α} {f : α → Step β} :
    Stuck ((m >>= f) s).1 ↔
      Stuck (m s).1 ∨ ∃ a t, m s = (.ok a, t) ∧ Stuck (f a t).1 := by
  rcases hm : m s with ⟨found, u⟩
  cases found with
  | error failure =>
      rw [bind_of_error hm, stuck_error_iff, stuck_error_iff]
      constructor
      · exact Or.inl
      · rintro (h | ⟨a, t, h, _⟩)
        · exact h
        · cases h
  | ok a =>
      rw [bind_of_ok hm]
      constructor
      · exact fun h => Or.inr ⟨a, u, rfl, h⟩
      · rintro (h | ⟨other, t, h, hf⟩)
        · exact absurd h (not_stuck_ok a)
        · cases h
          exact hf

/-- A step that is stuck in no session. -/
def NeverStuck (m : Step α) : Prop := ∀ s, ¬Stuck (m s).1

theorem NeverStuck.pure (a : α) : NeverStuck (pure a : Step α) := fun _ => not_stuck_ok a

theorem NeverStuck.report (entries : Log) : NeverStuck (report entries) :=
  fun _ => not_stuck_ok ()

theorem NeverStuck.bind {m : Step α} {f : α → Step β} (hm : NeverStuck m)
    (hf : ∀ a, NeverStuck (f a)) : NeverStuck (m >>= f) := by
  intro s h
  rcases stuck_bind_iff.mp h with h | ⟨a, t, _, h⟩
  · exact hm s h
  · exact hf a t h

/-- A sequence whose first part is never stuck. -/
theorem NeverStuck.stuck_bind_iff {m : Step α} {f : α → Step β} (hm : NeverStuck m) :
    Stuck ((m >>= f) s).1 ↔ ∃ a t, m s = (.ok a, t) ∧ Stuck (f a t).1 := by
  rw [Step.stuck_bind_iff, or_iff_right (hm s)]

/-- A sequence whose second part is stuck on one condition, whatever the first one yields. -/
theorem NeverStuck.stuck_bind_iff_and {m : Step α} {f : α → Step β} {p : Prop}
    (hm : NeverStuck m) (hf : ∀ a t, m s = (.ok a, t) → (Stuck (f a t).1 ↔ p)) :
    Stuck ((m >>= f) s).1 ↔ (∃ a t, m s = (.ok a, t)) ∧ p := by
  rw [hm.stuck_bind_iff]
  constructor
  · rintro ⟨a, t, h, hstuck⟩
    exact ⟨⟨a, t, h⟩, (hf a t h).mp hstuck⟩
  · rintro ⟨⟨a, t, h⟩, hp⟩
    exact ⟨a, t, h, (hf a t h).mpr hp⟩

/-- A sequence whose later parts are never stuck. -/
theorem stuck_bind_iff_left {m : Step α} {f : α → Step β} (hf : ∀ a, NeverStuck (f a)) :
    Stuck ((m >>= f) s).1 ↔ Stuck (m s).1 := by
  rw [stuck_bind_iff, or_iff_left]
  rintro ⟨a, t, _, h⟩
  exact hf a t h

/-- **Runs over a list.** A run that carries a value from item to item is stuck at an
item whose turn has come. -/
theorem stuck_fold_iff (run : β → List α → Step β) (one : β → α → Step β)
    {p : α → Session → Prop} (hnil : ∀ b, run b [] = pure b)
    (hcons : ∀ b a rest, run b (a :: rest) = one b a >>= fun b => run b rest)
    (hone : ∀ b a s, Stuck (one b a s).1 ↔ p a s) {b : β} {items : List α} :
    Stuck (run b items s).1 ↔ ∃ before a, before ++ [a] <+: items ∧
      ∃ c t, run b before s = (.ok c, t) ∧ p a t := by
  induction items generalizing b s with
  | nil =>
      rw [hnil]
      exact iff_of_false (not_stuck_ok b) (by simp)
  | cons first rest ih =>
      -- The first item is stuck at once, or the run over the rest is stuck behind it.
      rw [exists_turn_cons_iff, hcons, stuck_bind_iff, hnil, hone]
      refine or_congr ⟨fun h => ⟨b, s, rfl, h⟩, ?_⟩ ⟨?_, ?_⟩
      · rintro ⟨c, t, h, hstuck⟩
        obtain ⟨rfl, rfl⟩ := pure_eq_ok.mp h
        exact hstuck
      · rintro ⟨c, t, h, hstuck⟩
        obtain ⟨before, a, hprefix, d, u, hrun, hstuck⟩ := ih.mp hstuck
        exact ⟨before, a, hprefix, d, u, by rw [hcons, bind_of_ok h, hrun], hstuck⟩
      · rintro ⟨before, a, hprefix, d, u, hrun, hstuck⟩
        rw [hcons, bind_eq_ok] at hrun
        obtain ⟨c, t, h, hrun⟩ := hrun
        exact ⟨c, t, h, ih.mpr ⟨before, a, hprefix, d, u, hrun, hstuck⟩⟩

/-! ## The log -/

/-- A step that takes sessions with the same names and bindings to such sessions,
with the same result. -/
def IgnoresLog (m : Step α) : Prop :=
  ∀ ⦃s t⦄, s.Agrees t → (m s).1 = (m t).1 ∧ (m s).2.Agrees (m t).2

theorem IgnoresLog.pure (a : α) : IgnoresLog (pure a : Step α) := fun _ _ h => ⟨rfl, h⟩

theorem IgnoresLog.ofExcept (found : Except Failure α) : IgnoresLog (ofExcept found) :=
  fun _ _ h => ⟨rfl, h⟩

theorem IgnoresLog.report (entries : Log) : IgnoresLog (report entries) :=
  fun _ _ h => ⟨rfl, h.registry, h.bindings⟩

theorem IgnoresLog.nameFor (e : Element) (hints : List (String × String)) :
    IgnoresLog (nameFor e hints) := by
  intro s t h
  unfold Step.nameFor
  rw [h.registry]
  split
  · exact ⟨rfl, h⟩
  · exact ⟨rfl, rfl, h.bindings⟩

theorem IgnoresLog.bind {m : Step α} {f : α → Step β} (hm : IgnoresLog m)
    (hf : ∀ a, IgnoresLog (f a)) : IgnoresLog (m >>= f) := by
  intro s t h
  obtain ⟨hfound, hagrees⟩ := hm h
  rcases hs : m s with ⟨found, u⟩
  rcases ht : m t with ⟨other, v⟩
  rw [hs, ht] at hfound hagrees
  change found = other at hfound
  subst hfound
  cases found with
  | error failure =>
      rw [bind_of_error hs, bind_of_error ht]
      exact ⟨rfl, hagrees⟩
  | ok a =>
      rw [bind_of_ok hs, bind_of_ok ht]
      exact hf a hagrees

theorem IgnoresLog.stuck_iff {m : Step α} (hm : IgnoresLog m) (h : s.Agrees t) :
    Stuck (m s).1 ↔ Stuck (m t).1 := by
  rw [(hm h).1]

/-- A note that is taken first makes no difference. -/
theorem IgnoresLog.stuck_noted_iff {p : Prop} [Decidable p] {note : Log} {m : Step α}
    (hm : IgnoresLog m) :
    Stuck ((if p then do Step.report note; m else m) s).1 ↔ Stuck (m s).1 := by
  split
  · have hagrees : Session.Agrees { s with log := s.log ++ note } s := ⟨rfl, rfl⟩
    rw [report_bind]
    exact hm.stuck_iff hagrees
  · exact Iff.rfl

end Step
end CqlWorkload
