import CqlWorkload.Workload.Plan

/-!
# Workload documents

A workload is what a compile yields: the recipes of the bindings that its
statements refer to, and its blocks.  The document around it has a fixed
description and fixed scenarios, which select blocks by patterns of their names.
-/

namespace CqlWorkload

structure Workload where
  bindings : Entries String
  blocks : Entries Block
  deriving DecidableEq

namespace Workload

def description : String := "Auto-generated workload from source schema."

/-- The command that runs the blocks of a pattern. -/
def runCommand (pattern threads cycles : String) : String :=
  "run driver=cql tags=block:'" ++ pattern ++ "' " ++ threads ++ " " ++ cycles

/-- The command that runs the blocks of a pattern once. -/
def runOnce (pattern : String) : Value :=
  .text (runCommand pattern "threads===UNDEF" "cycles===UNDEF")

/-- The command that runs the blocks of a pattern for a number of cycles. -/
def runCycles (pattern cycles : String) : Value :=
  .text (runCommand pattern "threads=auto" ("cycles===TEMPLATE(" ++ cycles ++ ",10000)"))

def scenarios : Value :=
  .ofEntries [
    ("default", .ofEntries [
      ("schema", runOnce "schema-.*"),
      ("rampup", runCycles "rampup-.*" "rampup-cycles"),
      ("main", runCycles "main-.*" "main-cycles")]),
    ("truncate", runOnce "truncate-.*"),
    ("schema-keyspaces", runOnce "schema-keyspaces"),
    ("schema-types", runOnce "schema-types"),
    ("schema-tables", runOnce "schema-tables"),
    ("drop", runOnce "drop-.*"),
    ("drop-tables", runOnce "drop-tables"),
    ("drop-types", runOnce "drop-types"),
    ("drop-keyspaces", runOnce "drop-keyspaces")]

/-- A table of texts as a value. -/
def textTable (entries : Entries String) : Value :=
  .ofEntries (entries.map fun entry => (entry.1, .text entry.2))

def bindingsValue (w : Workload) : Value := textTable w.bindings

def blocksValue (w : Workload) : Value :=
  .ofEntries (w.blocks.map fun entry => (entry.1, entry.2.toValue))

def toValue (w : Workload) : Value :=
  .ofEntries [("description", .text description), ("scenarios", scenarios),
    ("bindings", w.bindingsValue), ("blocks", w.blocksValue)]

def opCount (w : Workload) : Nat := (w.blocks.flatMap (·.2.ops)).length

/-- The sentence that reports a finished compile. -/
def summary (w : Workload) : String :=
  "Generated " ++ FloatLayout.digitsText w.blocks.length ++ " blocks with " ++
    FloatLayout.digitsText w.opCount ++ " ops and " ++
    FloatLayout.digitsText w.bindings.length ++ " bindings"

end Workload

namespace Context

def compile (ctx : Context) (schema : Schema) : Step Workload := do
  Step.prime schema
  let blocks ← ctx.planAll schema ctx.config.blockplan
  fun session =>
    let workload : Workload := ⟨Binding.table session.bindings, blocks⟩
    (.ok workload, { session with log := session.log ++ Log.info workload.summary })

end Context

/-- Compile a schema under a configuration, with the log of the compile. -/
def Workload.generate (schema : Schema) (config : Config) (m : Matcher := .standard) :
    Except Failure Workload × Log :=
  match Context.create config m with
  | .error failure => (.error failure, [])
  | .ok (ctx, session) =>
    match ctx.compile schema session with
    | (found, session) => (found, session.log)

end CqlWorkload
