import CqlWorkload.Workload.Generator

/-!
# Blocks of a plan

A block holds the operations of its components, one after the other.  Two
operations of a block never share a name: a second one is refused.
-/

namespace CqlWorkload.Context

/-- Add the operations of a component to those of a block. -/
def addOps (block : String) (component : Component) (ops : Entries Op) :
    Entries Op → Except Failure (Entries Op)
  | [] => .ok ops
  | (name, op) :: rest =>
    match ops.get? name with
    | some _ => .error (.repeatedOp block name component.tag)
    | none => addOps block component (ops.put name op) rest

/-- The operations of components, put on top of those before them. -/
def collect (ctx : Context) (s : Schema) (block : String) (before : Entries Op) :
    List Component → Step (Entries Op)
  | [] => pure before
  | component :: rest => do
    let fragment ← ctx.generate s block component
    let ops ← Step.ofExcept (addOps block component before fragment)
    collect ctx s block ops rest

/-- The operations of components given by their tags, on top of those before them.
A tag is looked up when it is its component's turn. -/
def collectTags (ctx : Context) (s : Schema) (block : String) (before : Entries Op) :
    List String → Step (Entries Op)
  | [] => pure before
  | tag :: rest => do
    let component ← Step.ofExcept (Component.named tag)
    let fragment ← ctx.generate s block component
    let ops ← Step.ofExcept (addOps block component before fragment)
    collectTags ctx s block ops rest

/-- The block of some operations, which come from so many components. -/
def finish (block : String) (ops : Entries Op) (components : Nat) : Step Block := do
  Step.report (Log.debug (s!"Block '{block}' assembled with " ++
    FloatLayout.digitsText ops.length ++ " ops from " ++
    FloatLayout.digitsText components ++ " components"))
  pure (Block.ofOps ops)

def planBlock (ctx : Context) (s : Schema) (block : String) (components : List Component) :
    Step Block := do
  let ops ← ctx.collect s block [] components
  finish block ops components.length

/-- The block of components given by their tags. -/
def planTags (ctx : Context) (s : Schema) (block : String) (tags : List String) :
    Step Block := do
  let ops ← ctx.collectTags s block [] tags
  finish block ops tags.length

/-- The blocks of a plan, in its order. -/
def planAll (ctx : Context) (s : Schema) : Entries (List Component) → Step (Entries Block)
  | [] => pure []
  | (name, components) :: rest => do
    let block ← ctx.planBlock s name components
    let blocks ← planAll ctx s rest
    pure ((name, block) :: blocks)

end CqlWorkload.Context
