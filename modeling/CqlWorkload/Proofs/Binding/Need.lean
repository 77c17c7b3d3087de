import CqlWorkload.Binding.Accumulator
import CqlWorkload.Proofs.Entries
import CqlWorkload.Proofs.Naming.Registry
import CqlWorkload.Proofs.Statistic.Estimate
import CqlWorkload.Proofs.Text.Blank

/-!
# Needs for bindings

A statement needs a binding for every column that it takes a value for.  The
recipe of a need is the one of the column's type, behind a stage that keeps the
value below a modulus if the need has one.

**Accumulation.** Bindings are made for needs in their order, one for every new
recipe.  So the recipes of the bindings are those of the needs without their
repetitions (`recipes_accumulate`), and a binding once made stays in its place
(`accumulate_eq_append`).
-/

namespace CqlWorkload

/-! ## Recipes behind a stage -/

/-- A stage that neither begins nor ends with a blank or a semicolon is written as it is. -/
theorem Binding.modified_eq {modifier : String} {first last : Char} {cs : List Char}
    (h : modifier.toList = first :: (cs ++ [last])) (hf : Text.isBlank first = false)
    (hl : Text.isBlank last = false) (hs : (last == ';') = false) (recipe : String) :
    modified modifier recipe = modifier ++ "; " ++ recipe := by
  have hne : modifier ≠ "" := by
    rintro rfl
    cases h
  have htrim : Text.trim modifier = modifier := by
    rw [Text.trim, h, Text.trimWhile_cons_append_singleton hf hl, ← h, String.ofList_toList]
  have hdrop : Text.dropEndWhile (· == ';') modifier.toList = modifier.toList := by
    rw [h]
    exact Text.dropEndWhile_append_singleton (p := (· == ';')) hs (first :: cs)
  rw [modified, if_neg hne, htrim, hdrop, String.ofList_toList]

/-- A column that a statement takes a value for, and the modulus that the value is
kept below, if there is one. -/
structure Need where
  column : Column
  modulus : Option Nat
  deriving DecidableEq

namespace Need

def plain (c : Column) : Need := ⟨c, none⟩

/-- The stage in front of the recipe of the column's type. -/
def stage (need : Need) : String :=
  match need.modulus with
  | none => ""
  | some q => "Mod(" ++ FloatLayout.digitsText q ++ "L); "

/-- The stage as a binding is asked for it. -/
def modifier (need : Need) : String :=
  match need.modulus with
  | none => ""
  | some q => "Mod(" ++ FloatLayout.digitsText q ++ "L)"

/-- The hints that the name of a binding is asked for with. -/
def hints (need : Need) : List (String × String) :=
  match need.modulus with
  | none => []
  | some q => [("modulo", FloatLayout.digitsText q)]

/-- The recipe that some libraries have for a need. -/
def recipe? (libraries : List Library) (need : Need) : Option String :=
  (Binding.recipe? libraries need.column.trimmedType).map (need.stage ++ ·)

/-- A need whose recipe some binding has. -/
def IsBoundIn (libraries : List Library) (bindings : List Binding) (need : Need) : Prop :=
  ∃ b, b ∈ bindings ∧ need.recipe? libraries = some b.recipe

/-- The owner of the name of a binding that is made for a need. -/
def owner (need : Need) : Owner :=
  ⟨"column", need.column.keyspace, need.column.table, need.column.name, need.hints⟩

theorem modified_modifier (need : Need) (recipe : String) :
    Binding.modified need.modifier recipe = need.stage ++ recipe := by
  obtain ⟨column, modulus⟩ := need
  cases modulus with
  | none => simp [modifier, stage, Binding.modified]
  | some q =>
      have hlist : ("Mod(" ++ FloatLayout.digitsText q ++ "L)").toList =
          'M' :: (("od(".toList ++ (FloatLayout.digitsText q).toList ++ ['L']) ++ [')']) := by
        simp [String.toList_append]
      have hm := Binding.modified_eq hlist (by decide) (by decide) (by decide) recipe
      simpa [modifier, stage, String.append_assoc] using hm

theorem ofHints_hints (need : Need) : Role.ofHints need.hints = need.hints := by
  obtain ⟨column, modulus⟩ := need
  cases modulus with
  | none => rfl
  | some q => exact Role.ofHints_single (by decide : Text.lowerText "modulo" = "modulo")

theorem ownerIn?_hints (need : Need) :
    (Element.column need.column).ownerIn? need.hints = some need.owner := by
  show some (Owner.inRole _ (Role.ofHints need.hints)) = _
  rw [ofHints_hints]
  obtain ⟨column, modulus⟩ := need
  cases modulus with
  | none => rfl
  | some q =>
      have hplain : Role.IsPlain [("modulo", FloatLayout.digitsText q)] := by
        show ∀ key, key ∈ ["modulo"] → ∀ field, field ∈ Role.attributes →
          Text.upperText key ≠ field.text
        decide
      rw [hints, Owner.inRole_eq _ hplain]
      rfl

end Need

namespace Table

/-- The modulus of a table with statistics: its number of partitions times a
multiplier, rounded to leading digits, unless it is none. -/
def modulus? (t : Table) (multiplier : Double) : Option Nat :=
  match t.partitionModulo multiplier with
  | .ok modulo =>
    if t.hasStats && decide (0 < modulo) then some (Modulus.quantize modulo.toNat 1) else none
  | .error _ => none

/-- The need of an insert for a column. -/
def insertNeed (t : Table) (multiplier : Double) (c : Column) : Need :=
  ⟨c, if t.isLastPartitionKey c then t.modulus? multiplier else none⟩

end Table

/-- The rounding of a modulus that comes from an estimate does not fail. -/
theorem Context.bindDivided_eq (ctx : Context) (t : Table) (c : Column) :
    ctx.bindDivided t c =
      if !t.hasStats then ctx.bindPlain c
      else (do
        let multiplier := ctx.config.partitionMultiplier
        let modulo ← Step.ofExcept (t.partitionModulo multiplier)
        if modulo ≤ 0 then
          Step.report (Log.info (s!"Partition modulo for {t.fullName} is 0 after multiplier " ++
            multiplier.text ++ "; using an unmodified binding"))
          ctx.bindPlain c
        else
          let quantized := FloatLayout.digitsText (Modulus.quantize modulo.toNat 1)
          Step.report (Log.info (s!"Set partition modulo for {t.fullName} to " ++ quantized))
          ctx.bind c ("Mod(" ++ quantized ++ "L)") [("modulo", quantized)]) := by
  unfold bindDivided
  split
  · rfl
  · refine Step.ofExcept_bind_congr fun modulo hmodulo => ?_
    split
    · rfl
    next hle =>
      rw [Table.quantizeChecked_partitionModulo hmodulo (Int.not_le.mp hle),
        Step.ofExcept_ok_bind]

/-! ## Accumulation -/

namespace Binding

def made (t : Template) (need : Need) (recipe : String) : Binding :=
  ⟨t.nameOf (.column need.column) need.hints, recipe⟩

/-- The bindings with one for a need, if none has its recipe. -/
def supply (libraries : List Library) (t : Template) (bindings : List Binding) (need : Need) :
    List Binding :=
  match need.recipe? libraries with
  | none => bindings
  | some recipe =>
    if recipe ∈ bindings.map (·.recipe) then bindings else bindings ++ [made t need recipe]

/-- The bindings with those for some needs. -/
def accumulate (libraries : List Library) (t : Template) (bindings : List Binding)
    (needs : List Need) : List Binding :=
  needs.foldl (supply libraries t) bindings

/-- The first of some needs that has the recipe of a binding. -/
def firstNeed? (libraries : List Library) (needs : List Need) (b : Binding) : Option Need :=
  needs.find? fun need => need.recipe? libraries == some b.recipe

/-- The binding of a need among others. -/
def boundIn (libraries : List Library) (bindings : List Binding) (need : Need) : Binding :=
  (bindings.find? fun b => need.recipe? libraries == some b.recipe).getD ⟨"", ""⟩

variable {libraries : List Library} {t : Template}

theorem firstNeed?_append (first second : List Need) (b : Binding) :
    firstNeed? libraries (first ++ second) b =
      (firstNeed? libraries first b).or (firstNeed? libraries second b) :=
  List.find?_append

theorem accumulate_append (bindings : List Binding) (first second : List Need) :
    accumulate libraries t bindings (first ++ second) =
      accumulate libraries t (accumulate libraries t bindings first) second :=
  List.foldl_append

/-- Bindings depend on the names that a template makes only. -/
theorem accumulate_congr {other : Template}
    (h : ∀ e hints, t.nameOf e hints = other.nameOf e hints) (bindings : List Binding)
    (needs : List Need) :
    accumulate libraries t bindings needs = accumulate libraries other bindings needs := by
  have hsupply : supply libraries t = supply libraries other := by
    funext bindings need
    unfold supply made
    simp only [h]
  rw [accumulate, accumulate, hsupply]

theorem supply_eq_append (libraries : List Library) (t : Template) (bindings : List Binding)
    (need : Need) : ∃ more, supply libraries t bindings need = bindings ++ more := by
  unfold supply
  split
  · exact ⟨[], (List.append_nil _).symm⟩
  · split
    · exact ⟨[], (List.append_nil _).symm⟩
    · exact ⟨_, rfl⟩

/-- Bindings that were made stay where they are. -/
theorem accumulate_eq_append (libraries : List Library) (t : Template) (needs : List Need)
    (bindings : List Binding) :
    ∃ more, accumulate libraries t bindings needs = bindings ++ more := by
  induction needs generalizing bindings with
  | nil => exact ⟨[], (List.append_nil _).symm⟩
  | cons need rest ih =>
      obtain ⟨more, hmore⟩ := supply_eq_append libraries t bindings need
      obtain ⟨others, hothers⟩ := ih (supply libraries t bindings need)
      refine ⟨more ++ others, ?_⟩
      rw [← List.append_assoc, ← hmore]
      exact hothers

/-- **The recipes of the bindings are those of the needs, each of them once.** -/
theorem recipes_accumulate (needs : List Need) :
    (accumulate libraries t [] needs).map (·.recipe) =
      (needs.filterMap (·.recipe? libraries)).eraseDups := by
  induction needs using List.reverseRecOn with
  | nil => rfl
  | append_singleton needs need ih =>
      rw [accumulate_append]
      show (supply libraries t (accumulate libraries t [] needs) need).map (·.recipe) = _
      cases hr : need.recipe? libraries with
      | none => simp [supply, hr, ih]
      | some recipe =>
          simp only [supply, hr, ih, List.mem_eraseDups]
          rw [List.filterMap_append, List.filterMap_cons_some hr, List.filterMap_nil,
            Entries.eraseDups_append_singleton]
          split_ifs
          · exact ih
          · rw [List.map_append, ih]
            rfl

theorem boundIn_eq {need : Need} {recipe : String} (h : need.recipe? libraries = some recipe)
    (bindings : List Binding) : boundIn libraries bindings need =
      (bindings.find? (·.recipe == recipe)).getD ⟨"", ""⟩ := by
  have hp : (fun b : Binding => need.recipe? libraries == some b.recipe) =
      fun b => b.recipe == recipe := by
    funext b
    rw [h, Bool.eq_iff_iff, beq_iff_eq, beq_iff_eq, Option.some.injEq, eq_comm]
  rw [boundIn, hp]

theorem boundIn_eq_find? {bindings : List Binding} {need : Need}
    (h : need.IsBoundIn libraries bindings) :
    bindings.find? (fun b => need.recipe? libraries == some b.recipe) =
      some (boundIn libraries bindings need) := by
  obtain ⟨b, hb, hr⟩ := h
  have hs : (bindings.find? fun b => need.recipe? libraries == some b.recipe).isSome :=
    List.find?_isSome.mpr ⟨b, hb, by simp [hr]⟩
  obtain ⟨found, hf⟩ := Option.isSome_iff_exists.mp hs
  rw [boundIn, hf, Option.getD_some]

/-- A bound need is bound to a binding with its recipe. -/
theorem boundIn_spec {bindings : List Binding} {need : Need}
    (h : need.IsBoundIn libraries bindings) :
    boundIn libraries bindings need ∈ bindings ∧
      need.recipe? libraries = some (boundIn libraries bindings need).recipe := by
  have hf := boundIn_eq_find? h
  exact ⟨List.mem_of_find?_eq_some hf, by simpa using List.find?_some hf⟩

/-- Later bindings leave a need bound to what it was bound to. -/
theorem boundIn_append {bindings : List Binding} {need : Need}
    (h : need.IsBoundIn libraries bindings) (more : List Binding) :
    boundIn libraries (bindings ++ more) need = boundIn libraries bindings need := by
  rw [boundIn, List.find?_append, boundIn_eq_find? h]
  rfl

end Binding
end CqlWorkload
