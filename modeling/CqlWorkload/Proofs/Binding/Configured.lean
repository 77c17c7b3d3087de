import CqlWorkload.Proofs.Binding.Resolution
import CqlWorkload.Proofs.Session.Run

/-!
# Configured recipes

A compile looks for the recipe of a type first among the configured patterns and
then in the built-in library (`recipe?_create`).  A pattern is matched against the
whole type without its blanks; it is itself taken as it is written.

**Frozen types.** Only the built-in library looks inside `frozen`, so a configured
recipe of the type inside is not seen there.

**Types as patterns.** A type written with plain characters is a pattern of itself
unless it has blanks: then it matches no type at all.
-/

namespace CqlWorkload

variable {m : Matcher}

/-- Does a written pattern match a type? -/
def isTypePattern (pattern type : String) (m : Matcher := .standard) : Bool :=
  match m.read true pattern with
  | .ok test => test (Text.withoutBlanks type)
  | .error _ => false

/-- The recipe of the first configured pattern that matches a type. -/
def configured? (bindings : Entries String) (type : String) (m : Matcher := .standard) :
    Option String :=
  (bindings.find? fun entry => isTypePattern entry.1 type m).map (·.2)

theorem isTypePattern_of_read {pattern : String} {test : String → Bool}
    (h : m.read true pattern = .ok test) (type : String) :
    isTypePattern pattern type m = test (Text.withoutBlanks type) := by
  rw [isTypePattern, h]

theorem isTypePattern_normalize (pattern type : String) :
    isTypePattern pattern (Text.normalize type) m = isTypePattern pattern type m := by
  rw [isTypePattern, Text.withoutBlanks_normalize, isTypePattern]

theorem configured?_eq_none_iff (bindings : Entries String) (type : String) :
    configured? bindings type m = none ↔
      ∀ entry ∈ bindings, isTypePattern entry.1 type m = false := by
  simp [configured?]

/-- The first pattern that matches a type decides. -/
theorem configured?_append_cons {before : Entries String} {pattern type : String}
    (hbefore : ∀ entry ∈ before, isTypePattern entry.1 type m = false)
    (h : isTypePattern pattern type m = true) (recipe : String) (behind : Entries String) :
    configured? (before ++ (pattern, recipe) :: behind) type m = some recipe := by
  have hearlier : before.find? (fun entry => isTypePattern entry.1 type m) = none := by
    simpa [List.find?_eq_none] using hbefore
  rw [configured?, List.find?_append, hearlier, Option.none_or, List.find?_cons, h]
  rfl

theorem configured?_normalize (bindings : Entries String) (type : String) :
    configured? bindings (Text.normalize type) m = configured? bindings type m := by
  simp only [configured?, isTypePattern_normalize]

namespace Library

theorem resolve_normalize (library : Library) (type : String) :
    library.resolve (Text.normalize type) = library.resolve type := by
  rw [resolve, Text.withoutBlanks_normalize, resolve]

/-- A library of patterns begins with the rule of the first one. -/
theorem ofPatterns_cons_eq_ok_iff {name : String} {rule : String × Option String}
    {rules : List (String × Option String)} {library : Library} :
    ofPatterns name (rule :: rules) m = .ok library ↔
      ∃ test others, m.read true rule.1 = .ok test ∧ ofPatterns name rules m = .ok others ∧
        library = ⟨name, .ofPattern test (fun _ => rule.2) :: others.rules⟩ := by
  simp only [ofPatterns, List.mapM_cons]
  cases m.read true rule.1 with
  | error fault => simp [Functor.map, Except.map, bind, Except.bind]
  | ok test =>
      cases rules.mapM fun rule =>
          (fun test => Rule.ofPattern test fun _ => rule.2) <$> m.read true rule.1 with
      | error fault => simp [Functor.map, Except.map, bind, Except.bind]
      | ok others => simp [Functor.map, Except.map, bind, Except.bind, pure, Except.pure, eq_comm]

/-- A library is built of patterns exactly when each of them can be read. -/
theorem exists_ofPatterns_iff {name : String} {rules : List (String × Option String)} :
    (∃ library, ofPatterns name rules m = .ok library) ↔
      ∀ rule ∈ rules, ∃ test, m.read true rule.1 = .ok test := by
  induction rules with
  | nil => exact ⟨fun _ _ hrule => (List.not_mem_nil hrule).elim, fun _ => ⟨⟨name, []⟩, rfl⟩⟩
  | cons rule rest ih =>
      simp only [ofPatterns_cons_eq_ok_iff, List.forall_mem_cons, ← ih]
      constructor
      · rintro ⟨library, test, others, hread, hothers, -⟩
        exact ⟨⟨test, hread⟩, others, hothers⟩
      · rintro ⟨⟨test, hread⟩, others, hothers⟩
        exact ⟨_, test, others, hread, hothers, rfl⟩

/-- A library of patterns has the recipe of the first of them that matches. -/
theorem resolve_ofPatterns {name : String} {bindings : Entries String} {library : Library}
    (h : ofPatterns name (bindings.map fun entry => (entry.1, some entry.2)) m = .ok library)
    (type : String) : library.resolve type = configured? bindings type m := by
  induction bindings generalizing library with
  | nil =>
      cases h
      rfl
  | cons entry rest ih =>
      obtain ⟨test, others, hread, hothers, rfl⟩ := ofPatterns_cons_eq_ok_iff.mp h
      have hrest := ih hothers
      rw [resolve, firstRecipe?] at hrest ⊢
      rw [List.findSome?_cons, ruleRecipe?, String.ofList_toList, configured?, List.find?_cons,
        isTypePattern_of_read hread]
      cases test (Text.withoutBlanks type) with
      | true => simp
      | false => simpa [configured?] using hrest

end Library

/-- The standard configuration with some patterns of types. -/
def Config.binding (bindings : Entries String) : Config :=
  { Context.builtIn.config with typeBindings := bindings }

/-- A column of a type. -/
def Column.ofType (type : String) : Column := { Column.ofTable "orders" with typeText := type }

namespace Context

variable {config : Config} {ctx : Context} {s : Session}

/-- A compile starts exactly when its template and all its patterns can be read. -/
theorem exists_create_iff : (∃ ctx s, create config m = .ok (ctx, s)) ↔
    (∃ template, Template.read config.namingTemplate = .ok template) ∧
      ∀ entry ∈ config.typeBindings, ∃ test, m.read true entry.1 = .ok test := by
  have hlibrary : (∃ library, Library.ofPatterns "type_bindings"
        (config.typeBindings.map fun entry => (entry.1, some entry.2)) m = .ok library) ↔
      ∀ entry ∈ config.typeBindings, ∃ test, m.read true entry.1 = .ok test := by
    rw [Library.exists_ofPatterns_iff, List.forall_mem_map]
  rw [← hlibrary, create]
  cases Template.read config.namingTemplate with
  | error fault => simp
  | ok template =>
      cases hrules : config.typeBindings with
      | nil => exact ⟨fun _ => ⟨⟨_, rfl⟩, _, rfl⟩, fun _ => ⟨_, _, rfl⟩⟩
      | cons entry rest =>
          cases Library.ofPatterns "type_bindings"
            ((entry :: rest).map fun entry => (entry.1, some entry.2)) m <;> simp

/-- **Configured patterns come before the built-in library.** -/
theorem recipe?_create (h : create config m = .ok (ctx, s)) (type : String) :
    Binding.recipe? ctx.libraries type =
      (configured? config.typeBindings type m).or (Library.builtIn.resolve type) := by
  unfold create at h
  split at h
  next => cases h
  next template htemplate =>
    dsimp only at h
    split at h
    next hempty =>
      -- Without patterns there is no library of them, and none is missed.
      cases h
      have hnone : config.typeBindings = [] := List.isEmpty_iff.mp hempty
      simp [Binding.recipe?, hnone, configured?]
    next =>
      split at h
      next => cases h
      next library hlibrary =>
        cases h
        rw [Binding.recipe?, List.findSome?_cons, Library.resolve_ofPatterns hlibrary]
        cases configured? config.typeBindings type m with
        | none => simp
        | some recipe => rfl

/-- The recipe of a column is the one of its type as it is written. -/
theorem recipeFor_create (h : create config m = .ok (ctx, s)) (c : Column) :
    Binding.recipeFor ctx.libraries c =
      match (configured? config.typeBindings c.typeText m).or
        (Library.builtIn.resolve c.typeText) with
      | some recipe => .ok recipe
      | none => .error (.unboundType c.fullName c.trimmedType (ctx.libraries.map (·.name))) := by
  have hfound : Binding.recipe? ctx.libraries c.trimmedType =
      (configured? config.typeBindings c.typeText m).or (Library.builtIn.resolve c.typeText) := by
    rw [recipe?_create h, Column.trimmedType, configured?_normalize, Library.resolve_normalize]
  cases hrecipe : (configured? config.typeBindings c.typeText m).or
      (Library.builtIn.resolve c.typeText) with
  | none => rw [Binding.recipeFor, hfound.trans hrecipe]
  | some recipe => rw [Binding.recipeFor, hfound.trans hrecipe]

theorem toOption_recipeFor (h : create config m = .ok (ctx, s)) (c : Column) :
    (Binding.recipeFor ctx.libraries c).toOption =
      (configured? config.typeBindings c.typeText m).or (Library.builtIn.resolve c.typeText) := by
  rw [recipeFor_create h]
  cases (configured? config.typeBindings c.typeText m).or (Library.builtIn.resolve c.typeText) <;> rfl

/-! ## Frozen types -/

/-- **Frozen types look past the configured patterns.** A column of a frozen type that no
configured pattern matches gets the built-in recipe of the type inside, or is refused
when there is none.  A column of the type inside fares the same, unless a configured
pattern matches that type and has another recipe for it. -/
theorem recipeFor_frozen (h : create config m = .ok (ctx, s)) {type : String}
    (hfrozen : ∀ entry ∈ config.typeBindings,
      isTypePattern entry.1 ("frozen<" ++ type ++ ">") m = false)
    {c : Column} (hc : c.typeText = "frozen<" ++ type ++ ">") :
    (Binding.recipeFor ctx.libraries c =
      match Library.builtIn.resolve type with
      | some recipe => .ok recipe
      | none =>
        .error (.unboundType c.fullName c.trimmedType (ctx.libraries.map (·.name)))) ∧
    ∀ d : Column, d.typeText = type →
      ((Binding.recipeFor ctx.libraries c).toOption =
          (Binding.recipeFor ctx.libraries d).toOption ↔
        ∀ recipe, configured? config.typeBindings type m = some recipe →
          Library.builtIn.resolve type = some recipe) := by
  have hnone : configured? config.typeBindings c.typeText m = none := by
    rw [hc, configured?_eq_none_iff]
    exact hfrozen
  constructor
  · rw [recipeFor_create h, hnone, Option.none_or, hc, Library.resolve_frozen]
  · intro d hd
    rw [toOption_recipeFor h, toOption_recipeFor h, hnone, Option.none_or, hc, hd,
      Library.resolve_frozen]
    cases configured? config.typeBindings type m with
    | none => simp
    | some recipe => simp

theorem recipeFor_frozen_int : ∃ ctx s,
    create (Config.binding [("int", "Identity(); ToInt()")]) = .ok (ctx, s) ∧
    Binding.recipeFor ctx.libraries (.ofType "frozen<int>") = .ok "Hash(); ToInt()" ∧
    (Binding.recipeFor ctx.libraries (.ofType "frozen<text>")).toOption =
      (Binding.recipeFor ctx.libraries (.ofType "text")).toOption := by
  obtain ⟨ctx, s, h⟩ : ∃ ctx s,
      create (Config.binding [("int", "Identity(); ToInt()")]) = .ok (ctx, s) := ⟨_, _, rfl⟩
  have hint := (recipeFor_frozen h (by decide +kernel)
    (show (Column.ofType "frozen<int>").typeText = "frozen<" ++ "int" ++ ">" from rfl)).1
  have htext := (recipeFor_frozen h (by decide +kernel)
    (show (Column.ofType "frozen<text>").typeText = "frozen<" ++ "text" ++ ">" from rfl)).2
  have hfound : Library.builtIn.resolve "int" = some "Hash(); ToInt()" := by decide +kernel
  refine ⟨ctx, s, h, ?_, (htext (.ofType "text") rfl).mpr (by decide +kernel)⟩
  rw [hint, hfound]

/-- A recipe configured for a type is not the one of that type inside `frozen`. -/
theorem frozen_not_transparent : ∃ ctx s,
    create (Config.binding [("int", "Identity(); ToInt()")]) = .ok (ctx, s) ∧
    isTypePattern "int" ("frozen<" ++ "int" ++ ">") = false ∧
    Binding.recipeFor ctx.libraries (.ofType ("frozen<" ++ "int" ++ ">")) = .ok "Hash(); ToInt()" ∧
    Binding.recipeFor ctx.libraries (.ofType "int") = .ok "Identity(); ToInt()" :=
  ⟨_, _, rfl, rfl, rfl, rfl⟩

/-! ## Types as patterns -/

/-- The characters of types: those of words, brackets and commas. -/
def isTypeChar (c : Char) : Bool := Text.isWord c || c == '<' || c == '>' || c == ','

/-- A text of such characters and of blanks. -/
def IsTypeText (type : String) : Prop :=
  ∀ c ∈ type.toList, (isTypeChar c || Text.isBlank c) = true

instance (type : String) : Decidable (IsTypeText type) :=
  List.decidableBAll (fun c => (isTypeChar c || Text.isBlank c) = true) type.toList

theorem IsTypeText.isSpecial_eq {type : String} (h : IsTypeText type) :
    ∀ c ∈ type.toList, Pattern.isSpecial c = false := by
  have hspecial : (".\\[\x7b()*+?^$|".toList.all fun d =>
      !(isTypeChar d || Text.isBlank d)) = true := by
    decide +kernel
  intro c hc
  rw [Bool.eq_false_iff]
  intro hcspecial
  have hother := List.all_eq_true.mp hspecial c (List.contains_iff_mem.mp hcspecial)
  rw [h c hc] at hother
  cases hother

section PlainPatterns

variable (hm : m.ReadsPlain)
include hm

/-- A type as a pattern matches the types that are the same word. -/
theorem IsTypeText.isTypePattern_eq {type : String} (h : IsTypeText type) (other : String) :
    isTypePattern type other m =
      Library.isWord type.toList (Text.withoutBlanks other).toList := by
  obtain ⟨test, hread, htest⟩ := hm type h.isSpecial_eq
  rw [isTypePattern_of_read hread, htest]

/-- A type without blanks is a pattern of itself. -/
theorem IsTypeText.isTypePattern_self {type : String} (h : IsTypeText type)
    (hfree : Text.IsBlankFree type) : isTypePattern type type m = true := by
  rw [h.isTypePattern_eq hm, Text.withoutBlanks_eq_self hfree, Library.isWord_self]

/-- A type with a blank, as a pattern, matches no type. -/
theorem IsTypeText.not_isTypePattern {type : String} (h : IsTypeText type)
    (hblank : ¬Text.IsBlankFree type) (other : String) : isTypePattern type other m = false := by
  rw [h.isTypePattern_eq hm, Bool.eq_false_iff]
  intro hword
  refine hblank fun c hc => Bool.eq_false_iff.mpr fun hcblank => ?_
  have hany := Library.any_isBlank_of_isWord hword
  rw [List.any_eq_true.mpr ⟨c, hc, hcblank⟩] at hany
  obtain ⟨d, hd, hdblank⟩ := List.any_eq_true.mp hany.symm
  exact Bool.eq_false_iff.mp (Text.mem_withoutBlanks.mp hd).2 hdblank

variable {before behind : Entries String} {type recipe : String}

/-- **Types as patterns of themselves.** A type of plain characters, configured as a
pattern, can be read, and it is honoured if it has no blanks: columns of that type get
its recipe, unless an earlier pattern matches the type.  With a blank it matches no type. -/
theorem recipeFor_verbatim
    (hbindings : config.typeBindings = before ++ (type, recipe) :: behind)
    (htemplate : ∃ t, Template.read config.namingTemplate = .ok t)
    (hpatterns : ∀ entry ∈ before ++ behind, ∃ test, m.read true entry.1 = .ok test)
    (htype : IsTypeText type)
    (hbefore : ∀ entry ∈ before, isTypePattern entry.1 type m = false) :
    ∃ ctx s, create config m = .ok (ctx, s) ∧
      (Text.IsBlankFree type →
        ∀ c : Column, c.typeText = type → Binding.recipeFor ctx.libraries c = .ok recipe) ∧
      (¬Text.IsBlankFree type → ∀ other, isTypePattern type other m = false) := by
  have hself : ∃ test, m.read true type = .ok test := by
    obtain ⟨test, hread, -⟩ := hm type htype.isSpecial_eq
    exact ⟨test, hread⟩
  have hread : ∀ entry ∈ config.typeBindings, ∃ test, m.read true entry.1 = .ok test := by
    rw [List.forall_mem_append] at hpatterns
    rw [hbindings, List.forall_mem_append, List.forall_mem_cons]
    exact ⟨hpatterns.1, hself, hpatterns.2⟩
  obtain ⟨ctx, s, h⟩ := exists_create_iff.mpr ⟨htemplate, hread⟩
  refine ⟨ctx, s, h, fun hfree c hc => ?_, htype.not_isTypePattern hm⟩
  rw [recipeFor_create h, hbindings, hc,
    configured?_append_cons hbefore (htype.isTypePattern_self hm hfree), Option.some_or]

end PlainPatterns

theorem recipeFor_verbatim_address : ∃ ctx s,
    create (Config.binding [("int", "Identity(); ToInt()"), ("frozen<address>", "ToString()")]) =
      .ok (ctx, s) ∧
    Binding.recipeFor ctx.libraries (.ofType "frozen<address>") = .ok "ToString()" := by
  have hbindings : (Config.binding
      [("int", "Identity(); ToInt()"), ("frozen<address>", "ToString()")]).typeBindings =
      [("int", "Identity(); ToInt()")] ++ ("frozen<address>", "ToString()") :: [] := rfl
  obtain ⟨ctx, s, h, hfound, -⟩ := recipeFor_verbatim Matcher.readsPlain_standard hbindings ⟨_, rfl⟩
    (List.forall_mem_singleton.mpr ⟨_, rfl⟩) (by decide) (by decide +kernel)
  exact ⟨ctx, s, h, hfound (by decide) _ rfl⟩

/-- A type with a blank, configured as a pattern, leaves its columns to the built-in library. -/
theorem verbatim_blank_ignored : ∃ ctx s,
    create (Config.binding [("map<text, int>", "ToString()")]) = .ok (ctx, s) ∧
    IsTypeText "map<text, int>" ∧
    Binding.recipeFor ctx.libraries (.ofType "map<text, int>") =
      .ok "MapSizedHashed(HashRange(1,5),NumberNameToString(),ToInt())" :=
  ⟨_, _, rfl, by decide, rfl⟩

end Context
end CqlWorkload
