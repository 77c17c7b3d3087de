import CqlWorkload.Statistic.Ratio
import CqlWorkload.Workload.Session

/-!
# Bindings of columns

A column is bound to the recipe of its type.  Columns with the same recipe share
one binding, which is made and named when the first of them asks for it.

**Partitions.** The last column of the partition key of a table with statistics
is kept below a modulus that comes from the number of partitions.
-/

namespace CqlWorkload

namespace Binding

/-- The recipe of the first library that has one. -/
def recipe? (libraries : List Library) (type : String) : Option String :=
  libraries.findSome? (·.resolve type)

def recipeFor (libraries : List Library) (c : Column) : Except Failure String :=
  match recipe? libraries c.trimmedType with
  | some recipe => .ok recipe
  | none => .error (.unboundType c.fullName c.trimmedType (libraries.map (·.name)))

/-- A recipe behind a first stage, which is written without the semicolons at its end. -/
def modified (modifier recipe : String) : String :=
  if modifier = "" then recipe
  else
    String.ofList (Text.dropEndWhile (· == ';') (Text.trim modifier).toList) ++ "; " ++ recipe

def table (bindings : List Binding) : Entries String :=
  Entries.putAll [] (bindings.map fun b => (b.name, b.recipe))

end Binding

namespace Context

def enter (c : Column) (b : Binding) : Step Binding := fun s =>
  (.ok b, { s with
    bindings := s.bindings ++ [b]
    log := s.log ++ Log.debug s!"New binding '{b.name}' for {c.fullName}: {b.recipe}" })

/-- The binding that the session has for a recipe. -/
def existing (recipe : String) : Step (Option Binding) := fun s =>
  (.ok (s.bindings.find? (·.recipe == recipe)), s)

/-- The binding of a column, made on first use. -/
def bind (ctx : Context) (c : Column) (modifier : String) (hints : List (String × String)) :
    Step Binding := do
  let base ← Step.ofExcept (Binding.recipeFor ctx.libraries c)
  let recipe := Binding.modified modifier base
  match ← existing recipe with
  | some b => return b
  | none =>
    let name ← Step.nameFor (.column c) hints
    enter c ⟨name, recipe⟩

def bindPlain (ctx : Context) (c : Column) : Step Binding := ctx.bind c "" []

/-- The binding of a column kept below the number of partitions of its table. -/
def bindDivided (ctx : Context) (t : Table) (c : Column) : Step Binding := do
  if !t.hasStats then ctx.bindPlain c
  else
    let multiplier := ctx.config.partitionMultiplier
    let modulo ← Step.ofExcept (t.partitionModulo multiplier)
    if modulo ≤ 0 then
      Step.report (Log.info (s!"Partition modulo for {t.fullName} is 0 after multiplier " ++
        multiplier.text ++ "; using an unmodified binding"))
      ctx.bindPlain c
    else
      let rounded ← Step.ofExcept (Modulus.quantizeChecked modulo 1)
      let quantized := FloatLayout.digitsText rounded
      Step.report (Log.info (s!"Set partition modulo for {t.fullName} to " ++ quantized))
      ctx.bind c ("Mod(" ++ quantized ++ "L)") [("modulo", quantized)]

end Context
end CqlWorkload
