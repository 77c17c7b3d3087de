import CqlWorkload.Proofs.Schema.Roles
import CqlWorkload.Proofs.Workload.Refusal

/-!
# Demands of operations

An operation is made from the recipes of columns and from statistics of its table.  A
demand is not met when the type of the column has no recipe, or when the statistic is
missing or no number; there is one failure that says so (`Demand.Lacks`).

**Shortages.** A step draws on demands when it succeeds only if all of them are met, and
when a shortage that it fails with is that of one of them (`Step.DrawsOn`).  It may fail
for other reasons, and then it says nothing about its demands.  A sequence draws on what
its parts draw on, in whatever order they come.
-/

namespace CqlWorkload

/-- A failure for want of a recipe or a statistic. -/
def Failure.IsShortage (failure : Failure) : Prop :=
  failure.category = .bindingResolution ∨ failure.category = .statistic

/-- What an operation is made from, besides its element. -/
inductive Demand
  | recipe (c : Column)
  | statistic (t : Table) (name : String)

/-- A demand is not met, and a failure says why. -/
inductive Demand.Lacks (libraries : List Library) : Demand → Failure → Prop
  | unbound {c : Column} (none : Binding.recipe? libraries c.trimmedType = none) :
    Lacks libraries (.recipe c)
      (.unboundType c.fullName c.trimmedType (libraries.map (·.name)))
  | missing {t : Table} {name : String} (none : t.statistics.get? name = none) :
    Lacks libraries (.statistic t name) (.missingStatistic t.fullName name t.statistics.keys)
  | unreadable {t : Table} {name : String} {statistic : Statistic}
    {text : String} (found : t.statistics.get? name = some statistic)
    (written : statistic.written = .ok text) (none : Statistic.numberOf? text = none) :
    Lacks libraries (.statistic t name) (.unreadableStatistic t.fullName name text)

def Demand.IsMet (libraries : List Library) (demand : Demand) : Prop :=
  ∀ failure, ¬demand.Lacks libraries failure

/-- The demands of a table for statistics, if it has any. -/
def Table.demands (t : Table) (names : List String) : List Demand :=
  if t.hasStats then names.map (.statistic t) else []

theorem Table.demands_append (t : Table) (first second : List String) :
    t.demands (first ++ second) = t.demands first ++ t.demands second := by
  unfold demands
  split <;> simp

/-! ## Results -/

/-- A result that is there only if some demands are met, and whose shortage, if it is
one, is that of one of them. -/
structure FoundFrom {α : Type} (libraries : List Library) (demands : List Demand)
    (found : Except Failure α) : Prop where
  met : ∀ a, found = .ok a → ∀ demand, demand ∈ demands → demand.IsMet libraries
  short : ∀ failure, found = .error failure → failure.IsShortage →
    ∃ demand, demand ∈ demands ∧ demand.Lacks libraries failure

namespace FoundFrom

variable {α β : Type} {libraries : List Library} {first second demands : List Demand}

theorem ok (a : α) : FoundFrom libraries [] (.ok a : Except Failure α) where
  met _ _ _ hm := by cases hm
  short _ h := by cases h

/-- A result that fails for other reasons only. -/
theorem of_not_isShortage {found : Except Failure α}
    (h : ∀ failure, found = .error failure → ¬failure.IsShortage) :
    FoundFrom libraries [] found where
  met _ _ _ hm := by cases hm
  short failure hf hs := absurd hs (h failure hf)

/-- A result that is short of something exactly when a demand is not met. -/
theorem of_error_iff {demand : Demand} {found : Except Failure α}
    (h : ∀ failure, found = .error failure ∧ failure.IsShortage ↔
      demand.Lacks libraries failure) :
    FoundFrom libraries [demand] found where
  met a ha other hm failure hl := by
    obtain rfl := List.mem_singleton.mp hm
    rw [((h failure).mpr hl).1] at ha
    cases ha
  short failure hf hs := ⟨demand, List.mem_singleton_self _, (h failure).mp ⟨hf, hs⟩⟩

theorem of_mem_iff {found : Except Failure α} (h : FoundFrom libraries first found)
    (hmem : ∀ demand, demand ∈ first ↔ demand ∈ second) : FoundFrom libraries second found where
  met a ha demand hm := h.met a ha demand ((hmem demand).mpr hm)
  short failure hf hs := by
    obtain ⟨demand, hm, hl⟩ := h.short failure hf hs
    exact ⟨demand, (hmem demand).mp hm, hl⟩

/-- A result that was not found for want of a demand stays so, whatever comes behind it. -/
theorem error {failure : Failure} (h : FoundFrom libraries first (.error failure : Except _ α))
    (second : List Demand) :
    FoundFrom libraries (first ++ second) (.error failure : Except Failure β) where
  met _ hb := by cases hb
  short other ho hs := by
    cases ho
    obtain ⟨demand, hm, hl⟩ := h.short failure rfl hs
    exact ⟨demand, List.mem_append_left _ hm, hl⟩

/-- What is found behind a result was found from the demands of both. -/
theorem trans {a : α} {found : Except Failure β} (h : FoundFrom libraries first (.ok a))
    (hf : FoundFrom libraries second found) : FoundFrom libraries (first ++ second) found where
  met b hb := List.forall_mem_append.mpr ⟨h.met a rfl, hf.met b hb⟩
  short failure hfailure hs := by
    obtain ⟨demand, hm, hl⟩ := hf.short failure hfailure hs
    exact ⟨demand, List.mem_append_right _ hm, hl⟩

theorem bind {found : Except Failure α} {f : α → Except Failure β}
    (h : FoundFrom libraries first found) (hf : ∀ a, FoundFrom libraries second (f a)) :
    FoundFrom libraries (first ++ second) (found >>= f) := by
  cases found with
  | error failure => exact h.error second
  | ok a => exact h.trans (hf a)

theorem map {found : Except Failure α} (f : α → β) (h : FoundFrom libraries demands found) :
    FoundFrom libraries demands (f <$> found) := by
  cases found with
  | error failure =>
      have herror := h.error (β := β) []
      rwa [List.append_nil] at herror
  | ok a =>
      have hok := h.trans (.ok (f a))
      rwa [List.append_nil] at hok

end FoundFrom

/-! ## Statistics and recipes -/

section Sources

variable (libraries : List Library) (t : Table)

/-- A table is short of a statistic exactly when the demand for it is not met. -/
theorem Statistic.numeric_eq_error_iff (name : String) (failure : Failure) :
    numeric t.statistics name t.fullName = .error failure ∧ failure.IsShortage ↔
      (Demand.statistic t name).Lacks libraries failure := by
  unfold numeric
  constructor
  · rintro ⟨h, hshortage⟩
    split at h
    next hnone =>
      cases h
      exact .missing hnone
    next statistic hfound =>
      split at h
      next reason hreason =>
        cases h
        rcases hshortage with hs | hs <;> cases hs
      next text hwritten =>
        split at h
        · cases h
        next hnone =>
          cases h
          exact .unreadable hfound hwritten hnone
  · rintro (_ | hnone | ⟨hfound, hwritten, hnone⟩)
    · rw [hnone]
      exact ⟨rfl, Or.inr rfl⟩
    · rw [hfound]
      simp only [hwritten, hnone]
      exact ⟨trivial, Or.inr rfl⟩

theorem Binding.recipeFor_eq_error_iff (c : Column) (failure : Failure) :
    recipeFor libraries c = .error failure ∧ failure.IsShortage ↔
      (Demand.recipe c).Lacks libraries failure := by
  unfold recipeFor
  constructor
  · rintro ⟨h, -⟩
    split at h
    · cases h
    next hnone =>
      cases h
      exact .unbound hnone
  · rintro ⟨hnone⟩
    rw [hnone]
    exact ⟨rfl, Or.inl rfl⟩

theorem foundFrom_whole (found : Except Double.NotWhole Int) :
    FoundFrom libraries [] (Failure.whole found) := by
  refine .of_not_isShortage fun failure h => ?_
  rcases Failure.category_of_whole h with hc | hc <;> simp [Failure.IsShortage, hc]

namespace Table

theorem foundFrom_numeric (h : t.hasStats = true) (name : String) :
    FoundFrom libraries (t.demands [name]) (Statistic.numeric t.statistics name t.fullName) := by
  rw [demands, if_pos h]
  exact .of_error_iff (Statistic.numeric_eq_error_iff libraries t name)

theorem foundFrom_ratioFor (name : String) :
    FoundFrom libraries (t.demands [name]) (t.ratioFor name) := by
  by_cases h : t.hasStats = true
  · have hratio : t.ratioFor name = (Statistic.numeric t.statistics name t.fullName >>= fun x =>
        Failure.whole (x.mul (.ofInt Statistic.resolution)).truncate) := by
      rw [ratioFor, if_pos h]
      cases Statistic.numeric t.statistics name t.fullName <;> rfl
    rw [hratio, ← List.append_nil (t.demands [name])]
    exact (t.foundFrom_numeric libraries h name).bind fun x => foundFrom_whole libraries _
  · rw [demands, if_neg h, ratioFor, if_neg h]
    exact .ok 1

/-- Both weights are read, the one of reads first. -/
theorem foundFrom_totalRatio :
    FoundFrom libraries (t.demands [Statistic.readsName, Statistic.writesName]) t.totalRatio := by
  by_cases h : t.hasStats = true
  · have htotal : t.totalRatio = (t.readRatio >>= fun reads => (reads + ·) <$> t.writeRatio) := by
      rw [totalRatio, if_pos h]
      cases t.readRatio with
      | error failure => rfl
      | ok reads => cases t.writeRatio <;> rfl
    rw [htotal, ← List.singleton_append, demands_append]
    exact (t.foundFrom_ratioFor libraries _).bind fun reads =>
      (t.foundFrom_ratioFor libraries _).map _
  · rw [demands, if_neg h, totalRatio, if_neg h]
    exact .ok 1

theorem foundFrom_partitionModulo (h : t.hasStats = true) (multiplier : Double) :
    FoundFrom libraries (t.demands [Statistic.partitionsName]) (t.partitionModulo multiplier) := by
  have hmodulo : t.partitionModulo multiplier =
      (Statistic.numeric t.statistics Statistic.partitionsName t.fullName >>= fun estimate =>
        Failure.whole ((estimate.mul multiplier).add (.nearest false 1 2)).floor) := by
    rw [partitionModulo]
    cases Statistic.numeric t.statistics Statistic.partitionsName t.fullName <;> rfl
  rw [hmodulo, ← List.append_nil (t.demands _)]
  exact (t.foundFrom_numeric libraries h _).bind fun x => foundFrom_whole libraries _

end Table
end Sources

/-! ## Steps -/

/-- A step whose results are found from some demands, in every session. -/
def Step.DrawsOn {α : Type} (libraries : List Library) (demands : List Demand) (m : Step α) :
    Prop :=
  ∀ s, FoundFrom libraries demands (m s).1

namespace Step.DrawsOn

variable {α β : Type} {libraries : List Library} {first second demands : List Demand}

theorem pure (a : α) : DrawsOn libraries [] (pure a : Step α) := fun _ => .ok a

theorem report (entries : Log) : DrawsOn libraries [] (report entries) := fun _ => .ok ()

theorem ofExcept {found : Except Failure α} (h : FoundFrom libraries demands found) :
    DrawsOn libraries demands (ofExcept found) :=
  fun _ => h

theorem nameFor (e : Element) (hints : List (String × String)) :
    DrawsOn libraries [] (nameFor e hints) := by
  refine fun s => .of_not_isShortage fun failure h => ?_
  rcases Registry.category_of_nameFor (nameFor_eq_error h) with hc | hc | ⟨hc, _⟩ <;>
    simp [Failure.IsShortage, hc]

theorem of_mem_iff {m : Step α} (h : DrawsOn libraries first m)
    (hmem : ∀ demand, demand ∈ first ↔ demand ∈ second) : DrawsOn libraries second m :=
  fun s => (h s).of_mem_iff hmem

theorem bind {m : Step α} {f : α → Step β} (hm : DrawsOn libraries first m)
    (hf : ∀ a, DrawsOn libraries second (f a)) :
    DrawsOn libraries (first ++ second) (m >>= f) := by
  intro s
  have hfound := hm s
  rcases hrun : m s with ⟨found, t⟩
  rw [hrun] at hfound
  cases found with
  | error failure =>
      rw [bind_of_error hrun]
      exact hfound.error second
  | ok a =>
      rw [bind_of_ok hrun]
      exact hfound.trans (hf a t)

/-- A part that draws on nothing may come before. -/
theorem after {m : Step α} {f : α → Step β} (hm : DrawsOn libraries [] m)
    (hf : ∀ a, DrawsOn libraries demands (f a)) : DrawsOn libraries demands (m >>= f) :=
  hm.bind hf

theorem noted {p : Prop} [Decidable p] {note : Log} {m : Step α}
    (hm : DrawsOn libraries demands m) :
    DrawsOn libraries demands (if p then do Step.report note; m else m) := by
  split
  · exact (DrawsOn.report note).after fun _ => hm
  · exact hm

/-- A part that draws on nothing may come behind. -/
theorem before {m : Step α} {f : α → Step β} (hm : DrawsOn libraries demands m)
    (hf : ∀ a, DrawsOn libraries [] (f a)) : DrawsOn libraries demands (m >>= f) := by
  have h := hm.bind hf
  rwa [List.append_nil] at h

end Step.DrawsOn
end CqlWorkload
