import CqlWorkload.Yaml.Tag
import CqlWorkload.Yaml.Token

/-!
# Nodes

A document is a tree of nodes: scalars, lists and mappings, each with a tag.  The tree
is built from tokens; an alias stands for the node that its anchor names.

**Empty nodes.** Where a node may stand and none does, there is an empty scalar.
-/

namespace CqlWorkload.Yaml

inductive Node
  | scalar (tag : Tag) (text : String)
  | list (tag : Tag) (items : List Node)
  | mapping (tag : Tag) (entries : List (Node × Node))

namespace Node

instance : Inhabited Node := ⟨.scalar .null ""⟩

/-- What stands where there is no node. -/
def empty : Node := .scalar .null ""

/-- What stands for a node inside of itself. -/
def unfinished : Node := .scalar .unfinished ""

/-- What is known while the nodes of a document are built. -/
structure Build where
  tokens : List Token
  anchors : List (String × Node)
  handles : List (String × String)

/-- The handles that need no directive. -/
def standardHandles : List (String × String) := [("!", "!"), ("!!", Tag.standard)]

/-- An anchor and a tag, as far as a node has them. -/
structure Properties where
  anchor : Option String
  tag : Option String

/-- Why no node is built. -/
inductive Stop
  /-- The tokens break the rules of the format. -/
  | malformed
  /-- The text cannot be read on. -/
  | broken

/-- Stop unless a condition holds. -/
def demand (condition : Bool) : Except Stop Unit :=
  if condition then .ok () else .error .malformed

namespace Build

/-- The address of a written tag. -/
def address (b : Build) (written : Lexeme.WrittenTag) : Except Stop String :=
  match written.handle with
  | none => .ok written.suffix
  | some handle =>
    match b.handles.lookup handle with
    | some start => .ok (start ++ written.suffix)
    | none => .error .malformed

/-- The anchor and the tag in front of a node, in either order. -/
def properties (b : Build) : Except Stop (Properties × Build) := do
  match b.tokens with
  | .tag _ :: .broken :: _ => .error .broken
  | .anchor name :: .tag written :: rest =>
    return (⟨some name, some (← b.address written)⟩, { b with tokens := rest })
  | .tag written :: .anchor name :: rest =>
    return (⟨some name, some (← b.address written)⟩, { b with tokens := rest })
  | .anchor name :: rest => return (⟨some name, none⟩, { b with tokens := rest })
  | .tag written :: rest =>
    return (⟨none, some (← b.address written)⟩, { b with tokens := rest })
  | _ => return (⟨none, none⟩, b)

/-- Let an anchor name a node. -/
def name (b : Build) (anchor : Option String) (node : Node) : Build :=
  match anchor with
  | none => b
  | some anchor => { b with anchors := (anchor, node) :: b.anchors }

end Build

/-- The tag of a scalar: one that is written in full, or the one of its form. -/
def scalarTag (tag : Option String) (isPlain : Bool) (text : String) : Tag :=
  match tag with
  | none => if isPlain then .ofPlain text else .text
  | some "!" => .ofForm text
  | some uri => .ofUri uri

/-- The tag of a node with parts. -/
def partsTag (tag : Option String) (standard : Tag) : Tag :=
  match tag with
  | none | some "!" => standard
  | some uri => .ofUri uri

/-- Does no node stand between a key and what is next? -/
def isBlockGap : List Token → Bool
  | .key :: _ | .value :: _ | .blockEnd :: _ => true
  | _ => false

/-- Does no node stand behind the dash of an item? -/
def isItemGap : List Token → Bool
  | .blockItem :: _ | .blockEnd :: _ => true
  | _ => false

/-- Does no node stand behind the dash of an item of a list without a block? -/
def isLooseGap : List Token → Bool
  | .blockItem :: _ => true
  | tokens => isBlockGap tokens

/-- Does no node stand in brackets, before a comma or the closing bracket? -/
def isFlowGap (closing : Token → Bool) : List Token → Bool
  | .flowComma :: _ => true
  | t :: _ => closing t
  | [] => false

def isListEnd : Token → Bool
  | .flowListEnd => true
  | _ => false

def isMappingEnd : Token → Bool
  | .flowMappingEnd => true
  | _ => false

/-- The comma between two parts in brackets. -/
def comma (b : Build) : Except Stop Build :=
  match b.tokens with
  | .flowComma :: rest => .ok { b with tokens := rest }
  | .broken :: _ => .error .broken
  | _ => .error .malformed

/-- Does the colon of a value follow? -/
def isValue : List Token → Bool
  | .value :: _ => true
  | _ => false

/-- Refuse to go on where the text is broken. -/
def notBroken : List Token → Except Stop Unit
  | .broken :: _ => .error .broken
  | _ => .ok ()

mutual

/-- The node at the front of the tokens.  `block` allows blocks to begin, and `loose`
allows a list without a block of its own. -/
def build : Nat → Bool → Bool → Build → Except Stop (Node × Build)
  | 0, _, _, _ => .error .malformed
  | fuel + 1, block, loose, b => do
    match b.tokens with
    | .alias name :: rest =>
      match b.anchors.lookup name with
      | some node => return (node, { b with tokens := rest })
      | none => .error .malformed
    | _ =>
      let (props, b) ← b.properties
      notBroken b.tokens
      demand (!props.anchor.any fun name => (b.anchors.lookup name).isSome)
      let listTag := partsTag props.tag .list
      let mappingTag := partsTag props.tag .mapping
      match b.tokens with
      | .scalar text isPlain :: rest =>
        let node := Node.scalar (scalarTag props.tag isPlain text) text
        return (node, { b with tokens := rest }.name props.anchor node)
      | .flowList :: rest =>
        let b := { b with tokens := rest }.name props.anchor unfinished
        let (items, b) ← flowItems fuel true b
        let node := Node.list listTag items
        return (node, b.name props.anchor node)
      | .flowMapping :: rest =>
        let b := { b with tokens := rest }.name props.anchor unfinished
        let (entries, b) ← flowEntries fuel true b
        let node := Node.mapping mappingTag entries
        return (node, b.name props.anchor node)
      | .blockItem :: _ =>
        demand (loose || props.anchor.isSome || props.tag.isSome)
        if loose then
          let b := b.name props.anchor unfinished
          let (items, b) ← looseItems fuel b
          let node := Node.list listTag items
          return (node, b.name props.anchor node)
        else
          let node := Node.scalar (scalarTag props.tag true "") ""
          return (node, b.name props.anchor node)
      | tokens =>
        match block, tokens with
        | true, .blockList :: rest =>
          let b := { b with tokens := rest }.name props.anchor unfinished
          let (items, b) ← blockItems fuel b
          let node := Node.list listTag items
          return (node, b.name props.anchor node)
        | true, .blockMapping :: rest =>
          let b := { b with tokens := rest }.name props.anchor unfinished
          let (entries, b) ← blockEntries fuel b
          let node := Node.mapping mappingTag entries
          return (node, b.name props.anchor node)
        | _, _ =>
          demand (props.anchor.isSome || props.tag.isSome)
          let node := Node.scalar (scalarTag props.tag true "") ""
          return (node, b.name props.anchor node)

/-- The items of a list in a block, and the end of the block. -/
def blockItems : Nat → Build → Except Stop (List Node × Build)
  | 0, _ => .error .malformed
  | fuel + 1, b => do
    match b.tokens with
    | .blockItem :: rest =>
      let b := { b with tokens := rest }
      let (item, b) ← if isItemGap rest then pure (empty, b) else build fuel true false b
      let (items, b) ← blockItems fuel b
      return (item :: items, b)
    | .blockEnd :: rest => return ([], { b with tokens := rest })
    | .broken :: _ => .error .broken
    | _ => .error .malformed

/-- The items of a list that is as deep as the mapping around it. -/
def looseItems : Nat → Build → Except Stop (List Node × Build)
  | 0, _ => .error .malformed
  | fuel + 1, b => do
    match b.tokens with
    | .blockItem :: rest =>
      let b := { b with tokens := rest }
      let (item, b) ← if isLooseGap rest then pure (empty, b) else build fuel true false b
      let (items, b) ← looseItems fuel b
      return (item :: items, b)
    | _ => return ([], b)

/-- The entries of a mapping in a block, and the end of the block. -/
def blockEntries : Nat → Build → Except Stop (List (Node × Node) × Build)
  | 0, _ => .error .malformed
  | fuel + 1, b => do
    match b.tokens with
    | .key :: rest =>
      let b := { b with tokens := rest }
      let (key, b) ← if isBlockGap rest then pure (empty, b) else build fuel true true b
      let (value, b) ← blockValue fuel b
      let (entries, b) ← blockEntries fuel b
      return ((key, value) :: entries, b)
    | .blockEnd :: rest => return ([], { b with tokens := rest })
    | .broken :: _ => .error .broken
    | _ => .error .malformed

/-- The value of an entry in a block. -/
def blockValue : Nat → Build → Except Stop (Node × Build)
  | 0, _ => .error .malformed
  | fuel + 1, b =>
    match b.tokens with
    | .value :: rest =>
      let b := { b with tokens := rest }
      if isBlockGap rest then .ok (empty, b) else build fuel true true b
    | .broken :: _ => .error .broken
    | _ => .ok (empty, b)

/-- The items of a list in brackets, and the closing bracket.  An item may be an entry
by itself, which is a mapping of one entry. -/
def flowItems : Nat → Bool → Build → Except Stop (List Node × Build)
  | 0, _, _ => .error .malformed
  | fuel + 1, isFirst, b => do
    match b.tokens with
    | .flowListEnd :: rest => return ([], { b with tokens := rest })
    | _ =>
      let b ← if isFirst then pure b else comma b
      match b.tokens with
      | .flowListEnd :: rest => return ([], { b with tokens := rest })
      | .key :: rest =>
        let b := { b with tokens := rest }
        let noKey := isFlowGap isListEnd rest || isValue rest
        let (key, b) ← if noKey then pure (empty, b) else build fuel false false b
        let (value, b) ← flowValue fuel isListEnd b
        let (items, b) ← flowItems fuel false b
        return (.mapping .mapping [(key, value)] :: items, b)
      | _ =>
        let (item, b) ← build fuel false false b
        let (items, b) ← flowItems fuel false b
        return (item :: items, b)

/-- The entries of a mapping in brackets, and the closing bracket. -/
def flowEntries : Nat → Bool → Build → Except Stop (List (Node × Node) × Build)
  | 0, _, _ => .error .malformed
  | fuel + 1, isFirst, b => do
    match b.tokens with
    | .flowMappingEnd :: rest => return ([], { b with tokens := rest })
    | _ =>
      let b ← if isFirst then pure b else comma b
      match b.tokens with
      | .flowMappingEnd :: rest => return ([], { b with tokens := rest })
      | .key :: rest =>
        let b := { b with tokens := rest }
        let noKey := isFlowGap isMappingEnd rest || isValue rest
        let (key, b) ← if noKey then pure (empty, b) else build fuel false false b
        let (value, b) ← flowValue fuel isMappingEnd b
        let (entries, b) ← flowEntries fuel false b
        return ((key, value) :: entries, b)
      | _ =>
        let (key, b) ← build fuel false false b
        let (entries, b) ← flowEntries fuel false b
        return ((key, empty) :: entries, b)

/-- The value of an entry in brackets. -/
def flowValue : Nat → (Token → Bool) → Build → Except Stop (Node × Build)
  | 0, _, _ => .error .malformed
  | fuel + 1, closing, b =>
    match b.tokens with
    | .value :: rest =>
      let b := { b with tokens := rest }
      if isFlowGap closing rest then .ok (empty, b) else build fuel false false b
    | .broken :: _ => .error .broken
    | _ => .ok (empty, b)

end

/-- Add what a directive says to what the directives before it said: the version, if
it is given, and the handles. -/
def declare (known : Option Nat × List (String × String)) :
    Lexeme.Directive → Except Stop (Option Nat × List (String × String))
  | .version major => do
    demand (known.1.isNone && major == 1)
    return (some major, known.2)
  | .handle name address => do
    demand (known.2.lookup name).isNone
    return (known.1, known.2 ++ [(name, address)])
  | .other => .ok known

/-- The handles of the directives at the front, and the tokens behind the start of the
document. -/
def handlesFrom (known : Option Nat × List (String × String)) :
    List Token → Except Stop (List (String × String) × List Token)
  | .directive d :: rest => do handlesFrom (← declare known d) rest
  | .documentStart :: rest => .ok (known.2 ++ standardHandles, rest)
  | .broken :: _ => .error .broken
  | _ => .error .malformed

/-- Does a document end here? -/
def isDocumentEnd : List Token → Bool
  | [] | .documentEnd :: _ | .documentStart :: _ | .directive _ :: _ => true
  | _ => false

/-- The end of a document, which must be the only one.  Whether another one begins is
seen behind its directives. -/
def ending : List Token → Except Stop Unit
  | [] => .ok ()
  | .documentEnd :: rest => ending rest
  | .directive d :: rest => do
    let _ ← handlesFrom (none, []) (.directive d :: rest)
    .error .malformed
  | .broken :: _ => .error .broken
  | _ => .error .malformed

/-- The one node of a document, and nothing behind it. -/
def only (handles : List (String × String)) (tokens : List Token) : Except Stop Node := do
  let (node, b) ← build (4 * tokens.length + 8) true false ⟨tokens, [], handles⟩
  ending b.tokens
  return node

/-- The node of the single document that tokens hold; an empty text has none. -/
def ofTokens (tokens : List Token) : Except Stop (Option Node) := do
  match tokens with
  | [] => return none
  | .directive _ :: _ | .documentStart :: _ =>
    let (handles, tokens) ← handlesFrom (none, []) tokens
    if isDocumentEnd tokens then
      ending tokens
      return some empty
    else return some (← only handles tokens)
  | tokens => return some (← only standardHandles tokens)

/-- The node of a text, all characters of which have to be allowed.  What is wrong with
a broken text counts only if nothing is wrong with the nodes before it. -/
def ofText (s : String) : Except Fault (Option Node) := do
  Lexeme.demand (s.toList.all isAllowed)
  match Token.ofText s.toList with
  | .ok tokens => (ofTokens tokens).mapError fun _ => .malformed
  | .error fault =>
    match ofTokens (Token.ofBroken s.toList) with
    | .error .malformed => .error .malformed
    | _ => .error fault

end Node
end CqlWorkload.Yaml
