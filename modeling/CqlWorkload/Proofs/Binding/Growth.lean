import CqlWorkload.Proofs.Binding.Need
import CqlWorkload.Proofs.Workload.Step
import CqlWorkload.Workload.Generator

/-!
# Growth of sessions

A session grows by needs when bindings were made for them and nothing else was:
the registry is extended, the bindings are accumulated, every need is bound, and
every new binding was made for one of the needs under a name of its own.

**Steps.** Binding a column grows the session by the need for it, and the texts
that a statement is made of show the bindings that its needs are bound to
(`eachBound_eq_ok`, `insertPlaceholders_eq_ok`).
-/

namespace CqlWorkload

/-- A binding that was made for a need, under a name that was issued for it. -/
structure Need.Originates (libraries : List Library) (r : Registry) (need : Need)
    (b : Binding) : Prop where
  recipe : need.recipe? libraries = some b.recipe
  made : b = Binding.made r.template need b.recipe
  issued : r.issued.get? b.name = some need.owner

theorem Need.Originates.extend {libraries : List Library} {r later : Registry} {need : Need}
    {b : Binding} (h : need.Originates libraries r b) (hr : r.Extends later) :
    need.Originates libraries later b where
  recipe := h.recipe
  made := by rw [hr.template]; exact h.made
  issued := hr.kept _ _ h.issued

namespace Session

/-- A session after bindings were made for some needs. -/
structure Grows (libraries : List Library) (needs : List Need) (s t : Session) : Prop where
  registry : s.registry.Extends t.registry
  bindings : t.bindings =
    Binding.accumulate libraries s.registry.template s.bindings needs
  bound : ∀ need, need ∈ needs → need.IsBoundIn libraries t.bindings
  origins : ∀ b, b ∈ t.bindings → b ∈ s.bindings ∨
    b.recipe ∉ s.bindings.map (·.recipe) ∧
      ∃ need, Binding.firstNeed? libraries needs b = some need ∧
        need.Originates libraries t.registry b

namespace Grows

variable {libraries : List Library} {first second : List Need} {s t u : Session}

/-- A session grows by no need when its bindings stay. -/
theorem of_registry (libraries : List Library) (hr : s.registry.Extends t.registry)
    (hb : t.bindings = s.bindings) : Grows libraries [] s t where
  registry := hr
  bindings := hb
  bound := by simp
  origins := fun b h => Or.inl (hb ▸ h)

theorem refl (s : Session) : Grows libraries [] s s :=
  of_registry libraries (Registry.Extends.refl _) rfl

/-- What a session binds a need to is what any later one binds it to. -/
theorem boundIn_eq (h : Grows libraries second t u) {need : Need}
    (hn : need.IsBoundIn libraries t.bindings) :
    Binding.boundIn libraries u.bindings need = Binding.boundIn libraries t.bindings need := by
  obtain ⟨more, hm⟩ := Binding.accumulate_eq_append libraries t.registry.template second
    t.bindings
  rw [h.bindings, hm]
  exact Binding.boundIn_append hn more

theorem mem_bindings (h : Grows libraries second t u) {b : Binding} (hb : b ∈ t.bindings) :
    b ∈ u.bindings := by
  obtain ⟨more, hm⟩ := Binding.accumulate_eq_append libraries t.registry.template second
    t.bindings
  rw [h.bindings, hm]
  exact List.mem_append_left _ hb

theorem isBoundIn (h : Grows libraries second t u) {need : Need}
    (hn : need.IsBoundIn libraries t.bindings) : need.IsBoundIn libraries u.bindings := by
  obtain ⟨b, hb, hr⟩ := hn
  exact ⟨b, h.mem_bindings hb, hr⟩

theorem trans (hst : Grows libraries first s t) (htu : Grows libraries second t u) :
    Grows libraries (first ++ second) s u where
  registry := hst.registry.trans htu.registry
  bindings := by
    rw [Binding.accumulate_append, ← hst.bindings, ← hst.registry.template]
    exact htu.bindings
  bound := by
    intro need hn
    rcases List.mem_append.mp hn with hn | hn
    · exact htu.isBoundIn (hst.bound need hn)
    · exact htu.bound need hn
  origins := by
    intro b hb
    rcases htu.origins b hb with hb | ⟨hnew, need, hn, ho⟩
    · rcases hst.origins b hb with hb | ⟨hnew, need, hn, ho⟩
      · exact Or.inl hb
      · refine Or.inr ⟨hnew, need, ?_, ho.extend htu.registry⟩
        rw [Binding.firstNeed?_append, hn, Option.some_or]
    · -- No need of the first part has the recipe, or it would be bound already.
      have hnone : Binding.firstNeed? libraries first b = none := by
        rw [Binding.firstNeed?, List.find?_eq_none]
        intro other hm he
        obtain ⟨known, hk, hr⟩ := hst.bound other hm
        rw [beq_iff_eq, hr, Option.some.injEq] at he
        exact hnew (List.mem_map.mpr ⟨known, hk, he⟩)
      refine Or.inr ⟨fun hm => ?_, need, ?_, ho⟩
      · obtain ⟨known, hk, hr⟩ := List.mem_map.mp hm
        exact hnew (List.mem_map.mpr ⟨known, hst.mem_bindings hk, hr⟩)
      · rw [Binding.firstNeed?_append, hnone, Option.none_or]
        exact hn

end Grows

theorem grows_report (libraries : List Library) {entries : Log} {s t : Session} {u : Unit}
    (h : Step.report entries s = (.ok u, t)) : Grows libraries [] s t := by
  obtain rfl := Step.report_eq_ok.mp h
  exact Grows.of_registry libraries (Registry.Extends.refl _) rfl

/-- A need that is bound already changes nothing. -/
theorem grows_of_isBoundIn {libraries : List Library} {need : Need} {s : Session}
    (h : need.IsBoundIn libraries s.bindings) : Grows libraries [need] s s where
  registry := Registry.Extends.refl _
  bindings := by
    obtain ⟨b, hb, hr⟩ := h
    show s.bindings = Binding.supply _ _ s.bindings need
    rw [Binding.supply, hr]
    exact (if_pos (List.mem_map.mpr ⟨b, hb, rfl⟩)).symm
  bound := by
    intro other ho
    rwa [List.mem_singleton.mp ho]
  origins := fun _ hb => Or.inl hb

/-- A need with a new recipe adds a binding under a name that is issued for it. -/
theorem grows_made {libraries : List Library} {need : Need} {s : Session} {recipe name : String}
    {registry : Registry} (hr : need.recipe? libraries = some recipe)
    (hnew : recipe ∉ s.bindings.map (·.recipe))
    (hname : s.registry.nameFor (.column need.column) need.hints = .ok (name, registry))
    (log : Log) :
    Grows libraries [need] s ⟨registry, s.bindings ++ [⟨name, recipe⟩], log⟩ := by
  obtain ⟨owner, ho, rfl, hext, hissued⟩ := Registry.nameFor_eq_ok hname
  rw [Need.ownerIn?_hints, Option.some.injEq] at ho
  subst ho
  refine ⟨hext, ?_, ?_, ?_⟩
  · show s.bindings ++ _ = Binding.supply _ _ s.bindings need
    rw [Binding.supply, hr]
    exact (if_neg hnew).symm
  · intro other ho
    rw [List.mem_singleton.mp ho]
    exact ⟨_, List.mem_append_right _ (List.mem_singleton.mpr rfl), hr⟩
  · intro b hb
    rcases List.mem_append.mp hb with hb | hb
    · exact Or.inl hb
    · obtain rfl := List.mem_singleton.mp hb
      refine Or.inr ⟨hnew, need, by simp [Binding.firstNeed?, hr], hr, ?_, hissued⟩
      rw [Binding.made, hext.template]

end Session

namespace Context

open Session

variable {ctx : Context} {s t : Session}

/-! ## Binding a column -/

theorem recipe?_of_recipeFor {libraries : List Library} {need : Need} {base : String}
    (h : Binding.recipeFor libraries need.column = .ok base) :
    need.recipe? libraries = some (Binding.modified need.modifier base) := by
  unfold Binding.recipeFor at h
  split at h
  next recipe hr =>
    cases h
    rw [Need.recipe?, hr, Need.modified_modifier]
    rfl
  · cases h

/-- **Binding a column** grows the session by the need for it. -/
theorem bind_eq_ok (need : Need) {b : Binding}
    (h : ctx.bind need.column need.modifier need.hints s = (.ok b, t)) :
    Grows ctx.libraries [need] s t ∧ Binding.boundIn ctx.libraries t.bindings need = b := by
  unfold bind at h
  simp only [Step.bind_eq_ok, Step.ofExcept_eq_ok] at h
  obtain ⟨base, _, ⟨hbase, rfl⟩, found, _, hfound, h⟩ := h
  simp only [existing, Prod.mk.injEq, Except.ok.injEq] at hfound
  obtain ⟨rfl, rfl⟩ := hfound
  have hr := recipe?_of_recipeFor hbase
  rw [Binding.boundIn_eq hr]
  cases hf : s.bindings.find? (·.recipe == Binding.modified need.modifier base) with
  | some found =>
      rw [hf] at h
      obtain ⟨rfl, rfl⟩ := Step.pure_eq_ok.mp h
      have hrecipe : found.recipe = Binding.modified need.modifier base := by
        simpa using List.find?_some hf
      exact ⟨grows_of_isBoundIn ⟨found, List.mem_of_find?_eq_some hf, by rw [hr, hrecipe]⟩,
        by rw [hf, Option.getD_some]⟩
  | none =>
      rw [hf] at h
      simp only [Step.bind_eq_ok, Step.nameFor_eq_ok] at h
      obtain ⟨name, _, ⟨registry, hname, rfl⟩, h⟩ := h
      simp only [enter, Prod.mk.injEq, Except.ok.injEq] at h
      obtain ⟨rfl, rfl⟩ := h
      have hnew : Binding.modified need.modifier base ∉ s.bindings.map (·.recipe) := by
        intro hm
        obtain ⟨b, hb, he⟩ := List.mem_map.mp hm
        simpa [he] using List.find?_eq_none.mp hf b hb
      exact ⟨grows_made hr hnew hname _, by simp [List.find?_append, hf]⟩

theorem bindPlain_eq_ok {c : Column} {b : Binding} (h : ctx.bindPlain c s = (.ok b, t)) :
    Grows ctx.libraries [.plain c] s t ∧
      Binding.boundIn ctx.libraries t.bindings (.plain c) = b :=
  bind_eq_ok (.plain c) h

/-- Binding a column below the modulus of its table, whose estimate is a number. -/
theorem bindDivided_eq_ok {table : Table} {c : Column} {b : Binding}
    (h : ctx.bindDivided table c s = (.ok b, t)) :
    Grows ctx.libraries [⟨c, table.modulus? ctx.config.partitionMultiplier⟩] s t ∧
      Binding.boundIn ctx.libraries t.bindings
        ⟨c, table.modulus? ctx.config.partitionMultiplier⟩ = b := by
  rw [bindDivided_eq] at h
  split at h
  next hstats =>
    have hm : table.modulus? ctx.config.partitionMultiplier = none := by
      unfold Table.modulus?
      split
      · simp [Bool.eq_false_iff.mpr (by simpa using hstats)]
      · rfl
    rw [hm]
    exact bindPlain_eq_ok h
  next hstats =>
    have hstats : table.hasStats = true := by simpa using hstats
    simp only [Step.bind_eq_ok, Step.ofExcept_eq_ok] at h
    obtain ⟨modulo, _, ⟨hmodulo, rfl⟩, h⟩ := h
    split at h
    next hle =>
      simp only [Step.bind_eq_ok] at h
      obtain ⟨_, u, hreport, h⟩ := h
      have hm : table.modulus? ctx.config.partitionMultiplier = none := by
        rw [Table.modulus?, hmodulo]
        simp [Int.not_lt.mpr hle]
      rw [hm]
      exact ⟨(grows_report _ hreport).trans (bindPlain_eq_ok h).1, (bindPlain_eq_ok h).2⟩
    next hlt =>
      simp only [Step.bind_eq_ok] at h
      obtain ⟨_, u, hreport, h⟩ := h
      have hm : table.modulus? ctx.config.partitionMultiplier =
          some (Modulus.quantize modulo.toNat 1) := by
        rw [Table.modulus?, hmodulo]
        simp [hstats, Int.not_le.mp hlt]
      rw [hm]
      have hb := bind_eq_ok ⟨c, some (Modulus.quantize modulo.toNat 1)⟩ h
      exact ⟨(grows_report _ hreport).trans hb.1, hb.2⟩

theorem insertBinding_eq_ok {table : Table} {c : Column} {b : Binding}
    (h : ctx.insertBinding table c s = (.ok b, t)) :
    Grows ctx.libraries [table.insertNeed ctx.config.partitionMultiplier c] s t ∧
      Binding.boundIn ctx.libraries t.bindings
        (table.insertNeed ctx.config.partitionMultiplier c) = b := by
  unfold insertBinding at h
  unfold Table.insertNeed
  split at h
  next hl =>
    rw [if_pos hl]
    exact bindDivided_eq_ok h
  next hl =>
    rw [if_neg hl]
    exact bindPlain_eq_ok h

/-! ## Binding columns one after the other -/

/-- A step that binds a column for a need. -/
def BindsFor (ctx : Context) (one : Column → Step Binding) (need : Column → Need) : Prop :=
  ∀ c s b t, one c s = (.ok b, t) → Grows ctx.libraries [need c] s t ∧
    Binding.boundIn ctx.libraries t.bindings (need c) = b

theorem bindPlain_bindsFor (ctx : Context) : ctx.BindsFor ctx.bindPlain .plain :=
  fun _ _ _ _ h => bindPlain_eq_ok h

theorem insertBinding_bindsFor (ctx : Context) (table : Table) :
    ctx.BindsFor (ctx.insertBinding table) (table.insertNeed ctx.config.partitionMultiplier) :=
  fun _ _ _ _ h => insertBinding_eq_ok h

/-- One text for every column, from the binding that a step makes for it. -/
def bindEach (one : Column → Step Binding) (write : Column → Binding → String) :
    List Column → Step (List String)
  | [] => pure []
  | c :: rest => do
    let b ← one c
    let texts ← bindEach one write rest
    pure (write c b :: texts)

theorem eachBound_eq_bindEach (write : Column → Binding → String) (columns : List Column) :
    ctx.eachBound write columns = bindEach ctx.bindPlain write columns := by
  induction columns with
  | nil => rfl
  | cons c rest ih => rw [eachBound, bindEach, ih]

theorem insertPlaceholders_eq_bindEach (table : Table) (columns : List Column) :
    ctx.insertPlaceholders table columns =
      bindEach (ctx.insertBinding table) (fun _ b => b.placeholder) columns := by
  induction columns with
  | nil => rfl
  | cons c rest ih => rw [insertPlaceholders, bindEach, ih]

/-- The texts of columns show the bindings that the session has for them in the end. -/
theorem bindEach_eq_ok {one : Column → Step Binding} {need : Column → Need}
    {write : Column → Binding → String} (hone : ctx.BindsFor one need)
    {columns : List Column} {texts : List String}
    (h : bindEach one write columns s = (.ok texts, t)) :
    Grows ctx.libraries (columns.map need) s t ∧
      texts = columns.map fun c =>
        write c (Binding.boundIn ctx.libraries t.bindings (need c)) := by
  induction columns generalizing s texts with
  | nil =>
      obtain ⟨rfl, rfl⟩ := Step.pure_eq_ok.mp h
      exact ⟨Grows.refl _, rfl⟩
  | cons c rest ih =>
      simp only [bindEach, Step.bind_eq_ok, Step.pure_eq_ok] at h
      obtain ⟨b, u, hb, more, _, hmore, rfl, rfl⟩ := h
      obtain ⟨hfirst, rfl⟩ := hone c s b u hb
      obtain ⟨hrest, rfl⟩ := ih hmore
      have hc := hrest.boundIn_eq (hfirst.bound _ (List.mem_singleton.mpr rfl))
      refine ⟨hfirst.trans hrest, ?_⟩
      rw [List.map_cons, hc]

/-! ## Texts of statements -/

/-- The clauses of a predicate over some columns. -/
def predicateText (bound : Need → Binding) (columns : List Column) : String :=
  Text.joinWith Statement.predicateJoiner
    (columns.map fun c => equation c (bound (.plain c)))

/-- The assignments to some columns. -/
def assignmentsText (bound : Need → Binding) (columns : List Column) : String :=
  Text.joinWith ", " (columns.map fun c => assignment c (bound (.plain c)))

section Congruence

variable {first second : Need → Binding} {columns : List Column}

/-- Texts depend on the bindings of their columns only. -/
theorem predicateText_congr
    (h : ∀ c, c ∈ columns → first (.plain c) = second (.plain c)) :
    predicateText first columns = predicateText second columns := by
  rw [predicateText, predicateText, List.map_congr_left fun c hc => by rw [h c hc]]

theorem assignmentsText_congr
    (h : ∀ c, c ∈ columns → first (.plain c) = second (.plain c)) :
    assignmentsText first columns = assignmentsText second columns := by
  rw [assignmentsText, assignmentsText, List.map_congr_left fun c hc => by rw [h c hc]]

/-- Assignments show the same bindings in every later session. -/
theorem assignmentsText_later {needs : List Need} {u : Session}
    (hfirst : Grows ctx.libraries (columns.map .plain) s t)
    (hsecond : Grows ctx.libraries needs t u) :
    assignmentsText (Binding.boundIn ctx.libraries t.bindings) columns =
      assignmentsText (Binding.boundIn ctx.libraries u.bindings) columns :=
  assignmentsText_congr fun c hc =>
    (hsecond.boundIn_eq (hfirst.bound _ (List.mem_map.mpr ⟨c, hc, rfl⟩))).symm

end Congruence

theorem predicate_eq_ok {table : Table} {count : Int} {text : String}
    (h : ctx.predicate table count s = (.ok text, t)) :
    Grows ctx.libraries ((table.predicateColumns count).map .plain) s t ∧
      text = predicateText (Binding.boundIn ctx.libraries t.bindings)
        (table.predicateColumns count) := by
  simp only [predicate, Step.bind_eq_ok, Step.pure_eq_ok, eachBound_eq_bindEach] at h
  obtain ⟨_, u, hreport, clauses, _, hclauses, rfl, rfl⟩ := h
  obtain ⟨hgrows, rfl⟩ := bindEach_eq_ok ctx.bindPlain_bindsFor hclauses
  exact ⟨(grows_report _ hreport).trans hgrows, rfl⟩

theorem assignments_eq_ok {table : Table} {text : String}
    (h : ctx.assignments table s = (.ok text, t)) :
    Grows ctx.libraries (table.nonKeyColumns.map .plain) s t ∧
      text = assignmentsText (Binding.boundIn ctx.libraries t.bindings) table.nonKeyColumns := by
  simp only [assignments, Step.bind_eq_ok, Step.pure_eq_ok, eachBound_eq_bindEach] at h
  obtain ⟨parts, _, hparts, rfl, rfl⟩ := h
  obtain ⟨hgrows, rfl⟩ := bindEach_eq_ok ctx.bindPlain_bindsFor hparts
  exact ⟨hgrows, rfl⟩

theorem insertPlaceholders_eq_ok {table : Table} {columns : List Column}
    {placeholders : List String}
    (h : ctx.insertPlaceholders table columns s = (.ok placeholders, t)) :
    Grows ctx.libraries
        (columns.map (table.insertNeed ctx.config.partitionMultiplier)) s t ∧
      placeholders = columns.map fun c => (Binding.boundIn ctx.libraries t.bindings
        (table.insertNeed ctx.config.partitionMultiplier c)).placeholder := by
  rw [insertPlaceholders_eq_bindEach] at h
  exact bindEach_eq_ok (ctx.insertBinding_bindsFor table) h

end Context
end CqlWorkload
