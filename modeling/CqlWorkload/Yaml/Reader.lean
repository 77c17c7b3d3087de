import CqlWorkload.Yaml.Node
import CqlWorkload.Yaml.Scalar

/-!
# Reading YAML

The value of a document is built from its nodes.

**Merging.** An entry under the merge mark brings in the entries of a mapping, or of
several; they come before the entries of the mapping itself, so that these win.

**Faults.** The parts of a node are read after the node itself, level by level.  Of
several faults the one on the highest level counts, and there the first.

**Bytes, sets and pairs.** They are read for their faults alone: null stands for bytes, a
mapping for a set and a list of two for a pair.  A text without a fault that holds any of
them is refused.
-/

namespace CqlWorkload.Yaml

/-- A value that is read, or the first fault with its level. -/
inductive Leveled (α : Type)
  | fine (a : α)
  | faulty (level : Nat) (fault : Fault)

namespace Leveled

variable {α β : Type}

def map (f : α → β) : Leveled α → Leveled β
  | .fine a => .fine (f a)
  | .faulty level fault => .faulty level fault

/-- Read two parts; of two faults the higher one counts. -/
def both (f : Leveled (α → β)) (a : Leveled α) : Leveled β :=
  match f, a with
  | .fine f, .fine a => .fine (f a)
  | .faulty n p, .faulty m q => if m < n then .faulty m q else .faulty n p
  | .faulty n p, .fine _ => .faulty n p
  | .fine _, .faulty m q => .faulty m q

instance : Applicative Leveled where
  pure := .fine
  map := map
  seq f a := both f (a ())

/-- What is read at a level. -/
def atLevel (level : Nat) : Except Fault α → Leveled α
  | .ok a => .fine a
  | .error fault => .faulty level fault

def toExcept : Leveled α → Except Fault α
  | .fine a => .ok a
  | .faulty _ fault => .error fault

end Leveled

namespace Node

def tag : Node → Tag
  | .scalar tag _ | .list tag _ | .mapping tag _ => tag

/-- Is a value of the tag made of parts? -/
def hasParts : Tag → Bool
  | .list | .mapping | .set | .pairs => true
  | _ => false

mutual

/-- The text of a node that is read as a scalar: its own, or the one under the default
mark of a mapping. -/
def scalarText? : Node → Option String
  | .scalar _ text => some text
  | .list _ _ => none
  | .mapping _ entries => defaultText? entries

def defaultText? : List (Node × Node) → Option String
  | [] => none
  | (key, value) :: rest => if key.tag = .default then scalarText? value else defaultText? rest

end

def isMapping : Node → Bool
  | .mapping _ _ => true
  | _ => false

/-- The value of a node whose tag is the one of a scalar.  The form of a time stamp is
not looked for under the default mark of a mapping. -/
def scalarValue (level : Nat) (node : Node) : Leveled Value :=
  match node.scalarText? with
  | none => .faulty level .malformed
  | some text =>
    if node.isMapping && node.tag == .stamp then .faulty level .stampOfMapping
    else .atLevel level (Scalar.value node.tag text)

/-- The value of a key, which has no parts.  A key with the default tag is a text. -/
def keyValue (level : Nat) (key : Node) : Leveled Value :=
  if hasParts key.tag then .faulty level .malformed
  else if key.tag = .default then
    match key.scalarText? with
    | some text => .fine (.text text)
    | none => .faulty level .malformed
  else scalarValue level key

/-- Several parts, one after the other. -/
def together {α : Type} : List (Leveled α) → Leveled (List α)
  | [] => .fine []
  | part :: rest => List.cons <$> part <*> together rest

/-- The mapping of some entries; of equal keys the last value counts. -/
def mappingOf (entries : List (Value × Value)) : Value :=
  .map (entries.foldl (fun found entry => Value.putKey found entry.1 entry.2) [])

mutual

/-- The value of a node on a level. -/
def toValue (level : Nat) : Node → Leveled Value
  | .list .list items => .list <$> together (itemValues (level + 1) items)
  | .list .pairs items => .list <$> together (pairValues (level + 1) items)
  | .mapping .mapping entries | .mapping .set entries =>
    match entryValues (level + 1) entries with
    | .error fault => .faulty (level + 1) fault
    | .ok (merged, own) => mappingOf <$> together (merged ++ own)
  | node =>
    if hasParts node.tag then .faulty (level + 1) .malformed else scalarValue level node

def itemValues (level : Nat) : List Node → List (Leveled Value)
  | [] => []
  | item :: rest => toValue level item :: itemValues level rest

/-- The pairs of a list, each of which is a mapping of one entry. -/
def pairValues (level : Nat) : List Node → List (Leveled Value)
  | [] => []
  | .mapping _ [(key, value)] :: rest =>
    ((fun key value => Value.list [key, value]) <$> toValue level key <*> toValue level value) ::
      pairValues level rest
  | _ :: rest => .faulty level .malformed :: pairValues level rest

/-- The entries of a mapping: those that are merged in, and its own. -/
def entryValues (level : Nat) : List (Node × Node) →
    Except Fault (List (Leveled (Value × Value)) × List (Leveled (Value × Value)))
  | [] => .ok ([], [])
  | (key, value) :: rest => do
    let (merged, own) ← entryValues level rest
    if key.tag = .merge then
      return ((← mergedValues level value) ++ merged, own)
    else return (merged, (Prod.mk <$> keyValue level key <*> toValue level value) :: own)

/-- The entries that the node under a merge mark brings in. -/
def mergedValues (level : Nat) : Node → Except Fault (List (Leveled (Value × Value)))
  | .mapping _ entries => do
    let (merged, own) ← entryValues level entries
    return merged ++ own
  | .list _ items => mergedItems level items
  | .scalar _ _ => .error .malformed

/-- The entries that a list of mappings brings in, those of the last one first. -/
def mergedItems (level : Nat) : List Node → Except Fault (List (Leveled (Value × Value)))
  | [] => .ok []
  | .mapping _ entries :: rest => do
    let (merged, own) ← entryValues level entries
    return (← mergedItems level rest) ++ (merged ++ own)
  | _ :: _ => .error .malformed

end

mutual

/-- Has every node a tag of a kind? -/
def allTags (p : Tag → Bool) : Node → Bool
  | .scalar tag _ => p tag
  | .list tag items => p tag && itemTags p items
  | .mapping tag entries => p tag && entryTags p entries

def itemTags (p : Tag → Bool) : List Node → Bool
  | [] => true
  | item :: rest => allTags p item && itemTags p rest

def entryTags (p : Tag → Bool) : List (Node × Node) → Bool
  | [] => true
  | (key, value) :: rest => allTags p key && allTags p value && entryTags p rest

end

end Node

/-- Refuse what this library has no value for unless a condition holds. -/
def demandSupport (condition : Bool) : Except Fault Unit :=
  if condition then .ok () else .error .unsupported

/-- What gives the values of texts. -/
abbrev Loader := String → Except Fault Value

/-- The value of a text; an empty text is null. -/
def read (s : String) : Except Fault Value := do
  match ← Node.ofText s with
  | none => return .null
  | some node =>
    demandSupport (node.allTags Tag.isFinished)
    let value ← (node.toValue 0).toExcept
    demandSupport (node.allTags Tag.isSupported)
    return value

end CqlWorkload.Yaml
