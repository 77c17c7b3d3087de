import CqlWorkload.Yaml.Lexeme

/-!
# Tokens

The tokens of a YAML text are its lexemes and indicators, together with marks for
what only the layout shows: where the blocks begin and end, and where the keys are.

**Keys.** A scalar may turn out to be a key when a colon follows it on the same line.
The place in front of it is remembered as a candidate, one for every depth of
brackets, and the mark of the key is put there once the colon is found.

**Blocks.** The columns of the open blocks are kept as a stack.  A line that begins
before a column closes its block.

**Broken texts.** Nodes are built while tokens are still read, so that a fault in the
text counts only if nothing is wrong with the nodes before it.  Tokens behind a
candidate cannot be built from as long as it may become a key.
-/

namespace CqlWorkload.Yaml

inductive Token
  | directive (d : Lexeme.Directive)
  | documentStart
  | documentEnd
  | blockList
  | blockMapping
  | blockEnd
  | flowList
  | flowListEnd
  | flowMapping
  | flowMappingEnd
  | blockItem
  | flowComma
  | key
  | value
  | alias (name : String)
  | anchor (name : String)
  | tag (written : Lexeme.WrittenTag)
  | scalar (text : String) (isPlain : Bool)
  /-- The text cannot be read on. -/
  | broken

/-- A place where a key may have begun. -/
structure Candidate where
  /-- Number of tokens before. -/
  tokens : Nat
  /-- Does the layout allow nothing but a key here? -/
  required : Bool
  line : Nat
  column : Nat
  index : Nat

/-- A text of which some tokens are read. -/
structure Scan where
  cursor : Cursor
  /-- The tokens so far, last one first. -/
  tokens : List Token
  /-- The columns of the open blocks, innermost first. -/
  columns : List Nat
  /-- The candidates for every depth of brackets, innermost first. -/
  candidates : List (Option Candidate)
  /-- May a key begin here? -/
  keyAllowed : Bool

namespace Scan

/-- Nothing is read yet. -/
def start (cs : List Char) : Scan := ⟨.start cs, [], [], [none], true⟩

def inFlow (s : Scan) : Bool := 1 < s.candidates.length

/-- The least column of what belongs into the innermost block. -/
def level (s : Scan) : Nat :=
  match s.columns with
  | [] => 0
  | column :: _ => column + 1

def push (s : Scan) (t : Token) : Scan := { s with tokens := t :: s.tokens }

/-- Put tokens behind so many others. -/
def insertAt (s : Scan) (count : Nat) (ts : List Token) : Scan :=
  let later := s.tokens.length - count
  { s with tokens := s.tokens.take later ++ ts.reverse ++ s.tokens.drop later }

/-- The characters between a candidate and its colon that are too many. -/
def keyReach : Nat := 1024

/-- Can a candidate no longer be a key at the cursor? -/
def isStale (c : Cursor) (k : Candidate) : Bool :=
  k.line != c.line || k.index + keyReach < c.index

/-- The candidates that can still be keys. -/
def freshCandidates (c : Cursor) : List (Option Candidate) →
    Except Fault (List (Option Candidate))
  | [] => .ok []
  | found :: rest => do
    let others ← freshCandidates c rest
    match found with
    | none => return none :: others
    | some k =>
      if isStale c k then
        if k.required then .error .malformed else return none :: others
      else return some k :: others

def dropStale (s : Scan) : Except Fault Scan := do
  return { s with candidates := ← freshCandidates s.cursor s.candidates }

/-- Give up the innermost candidate. -/
def dropCandidate (s : Scan) : Except Fault Scan :=
  match s.candidates with
  | some k :: rest =>
    if k.required then .error .malformed else .ok { s with candidates := none :: rest }
  | _ => .ok s

/-- Remember the place of the cursor as a candidate, if a key may begin here. -/
def addCandidate (s : Scan) : Except Fault Scan := do
  if s.keyAllowed then
    let s ← s.dropCandidate
    let c := s.cursor
    let required := !s.inFlow && s.columns.head? == some c.column
    let k : Candidate := ⟨s.tokens.length, required, c.line, c.column, c.index⟩
    return { s with candidates := some k :: s.candidates.drop 1 }
  else return s

/-- Close the blocks that are deeper than a column. -/
def closeBlocks (tokens : List Token) (column : Nat) : List Nat → List Token × List Nat
  | [] => (tokens, [])
  | open' :: rest =>
    if column < open' then closeBlocks (.blockEnd :: tokens) column rest
    else (tokens, open' :: rest)

/-- Close the blocks that the cursor stands before; brackets close no blocks. -/
def unwind (s : Scan) : Scan :=
  if s.inFlow then s
  else
    match closeBlocks s.tokens s.cursor.column s.columns with
    | (tokens, columns) => { s with tokens := tokens, columns := columns }

def unwindAll (s : Scan) : Scan :=
  if s.inFlow then s
  else
    { s with
      tokens := List.replicate s.columns.length .blockEnd ++ s.tokens
      columns := [] }

/-- Does a column begin a block inside the innermost one? -/
def deepens (s : Scan) (column : Nat) : Bool :=
  match s.columns with
  | [] => true
  | top :: _ => top < column

/-- Begin a block at the cursor, unless it is begun already. -/
def openBlock (s : Scan) (t : Token) : Scan :=
  if s.deepens s.cursor.column then
    { s.push t with columns := s.cursor.column :: s.columns }
  else s

/-- Move behind so many characters and push a token for them. -/
def take (s : Scan) (count : Nat) (t : Token) : Scan :=
  { s.push t with cursor := Cursor.skip count s.cursor }

/-- Push the token of a lexeme. -/
def lexeme (s : Scan) (c : Cursor) (t : Token) : Scan := { s.push t with cursor := c }

/-- Move to the next token: over blanks, comments and breaks. -/
def toNext : Nat → Scan → Scan
  | 0, s => s
  | fuel + 1, s =>
    let c := s.cursor.skipBlanks.skipComment
    match c.takeBreak? with
    | none => { s with cursor := c }
    | some (_, c) => toNext fuel { s with cursor := c, keyAllowed := s.keyAllowed || !s.inFlow }

/-- Move over a byte order mark at the very beginning, and to the next token. -/
def approach (s : Scan) : Scan :=
  let c := s.cursor
  let c := if c.index = 0 && c.sees byteOrderMark then c.next else c
  toNext (c.rest.length + 1) { s with cursor := c }

/-- A mark between documents, or a directive. -/
def documentMark (s : Scan) : Except Fault Scan := do
  let s ← s.unwindAll.dropCandidate
  return { s with keyAllowed := false }

def openFlow (s : Scan) (t : Token) : Except Fault Scan := do
  let s ← s.addCandidate
  return { s.take 1 t with candidates := none :: s.candidates, keyAllowed := true }

def closeFlow (s : Scan) (t : Token) : Except Fault Scan := do
  let s ← s.dropCandidate
  Lexeme.demand s.inFlow
  return { s.take 1 t with candidates := s.candidates.drop 1, keyAllowed := false }

def comma (s : Scan) : Except Fault Scan := do
  let s ← s.dropCandidate
  return { s.take 1 .flowComma with keyAllowed := true }

def dash (s : Scan) : Except Fault Scan := do
  Lexeme.demand (s.inFlow || s.keyAllowed)
  let s := if s.inFlow then s else s.openBlock .blockList
  let s ← s.dropCandidate
  return { s.take 1 .blockItem with keyAllowed := true }

def question (s : Scan) : Except Fault Scan := do
  Lexeme.demand (s.inFlow || s.keyAllowed)
  let s := if s.inFlow then s else s.openBlock .blockMapping
  let s ← s.dropCandidate
  return { s.take 1 .key with keyAllowed := !s.inFlow }

/-- The colon of a value.  A candidate before it becomes a key, and begins a block
unless one is begun already. -/
def colon (s : Scan) : Except Fault Scan :=
  match s.candidates with
  | some k :: rest =>
    let opens := !s.inFlow && s.deepens k.column
    let s := { s with candidates := none :: rest, keyAllowed := false }
    let s := s.insertAt k.tokens (if opens then [.blockMapping, .key] else [.key])
    let s := if opens then { s with columns := k.column :: s.columns } else s
    .ok (s.take 1 .value)
  | _ => do
    Lexeme.demand (s.inFlow || s.keyAllowed)
    let s := if s.inFlow then s else s.openBlock .blockMapping
    return { s.take 1 .value with keyAllowed := !s.inFlow }

/-- A lexeme that may be a key, or a part of one. -/
def keyPart (s : Scan) (read : Cursor → Except Fault (Token × Cursor)) :
    Except Fault Scan := do
  let s ← s.addCandidate
  let (t, c) ← read s.cursor
  return { s.lexeme c t with keyAllowed := false }

def quotedScalar (double : Bool) (c : Cursor) : Except Fault (Token × Cursor) := do
  let (text, c) ← Lexeme.quoted double c
  return (.scalar (String.ofList text) false, c)

def blockScalar (s : Scan) (isFolded : Bool) : Except Fault Scan := do
  let s ← s.dropCandidate
  let (text, c) ← Lexeme.block isFolded s.level s.cursor
  return { s.lexeme c (.scalar (String.ofList text) false) with keyAllowed := true }

def plainScalar (s : Scan) : Except Fault Scan := do
  let s ← s.addCandidate
  match Lexeme.plain s.inFlow s.level s.cursor with
  | (text, crossed, c) =>
    return { s.lexeme c (.scalar (String.ofList text) true) with keyAllowed := crossed }

/-- The characters that begin no plain scalar. -/
def indicators : List Char :=
  ['-', '?', ':', ',', '[', ']', '\x7b', '\x7d', '#', '&', '*', '!', '|', '>', '\'', '"', '%',
    '@', '\x60']

/-- Does a plain scalar begin with a character? -/
def beginsPlain (inFlow : Bool) (ch : Char) (rest : List Char) : Bool :=
  !(endsWord [ch] || indicators.contains ch) ||
    (!endsWord rest && (ch == '-' || (!inFlow && (ch == '?' || ch == ':'))))

/-- Read the token that begins with a character. -/
def token (s : Scan) (ch : Char) (rest : List Char) : Except Fault Scan :=
  let c := s.cursor
  let atMargin := c.column == 0
  if ch = '%' && atMargin then do
    let s ← s.documentMark
    let (d, c) ← Lexeme.directive s.cursor
    return s.lexeme c (.directive d)
  else if atMargin && beginsWithMark '-' c.rest then
    s.documentMark.map (·.take 3 .documentStart)
  else if atMargin && beginsWithMark '.' c.rest then
    s.documentMark.map (·.take 3 .documentEnd)
  else if ch = '[' then s.openFlow .flowList
  else if ch = '\x7b' then s.openFlow .flowMapping
  else if ch = ']' then s.closeFlow .flowListEnd
  else if ch = '\x7d' then s.closeFlow .flowMappingEnd
  else if ch = ',' then s.comma
  else if ch = '-' && endsWord rest then s.dash
  else if ch = '?' && (s.inFlow || endsWord rest) then s.question
  else if ch = ':' && (s.inFlow || endsWord rest) then s.colon
  else if ch = '*' then
    s.keyPart fun c => (Lexeme.anchor c).map fun found => (.alias found.1, found.2)
  else if ch = '&' then
    s.keyPart fun c => (Lexeme.anchor c).map fun found => (.anchor found.1, found.2)
  else if ch = '!' then
    s.keyPart fun c => (Lexeme.tag c).map fun found => (.tag found.1, found.2)
  else if ch = '|' && !s.inFlow then s.blockScalar false
  else if ch = '>' && !s.inFlow then s.blockScalar true
  else if ch = '\'' then s.keyPart (quotedScalar false)
  else if ch = '"' then s.keyPart (quotedScalar true)
  else if beginsPlain s.inFlow ch rest then s.plainScalar
  else .error .malformed

/-- Read tokens to the end of the text. -/
def readAll : Nat → Scan → Except Fault Scan
  | 0, _ => .error .malformed
  | fuel + 1, s => do
    let s ← s.approach.dropStale
    let s := s.unwind
    match s.cursor.rest with
    | [] => s.unwindAll.dropCandidate
    | ch :: rest => readAll fuel (← s.token ch rest)

/-- The tokens that no mark of a key will be put between any more. -/
def settled (s : Scan) : List Token :=
  let fresh := (s.candidates.filterMap id).filter (!isStale s.cursor ·)
  match (fresh.map (·.tokens)).min? with
  | some count => s.tokens.reverse.take count
  | none => s.tokens.reverse

/-- The tokens that are settled when a text turns out to be broken. -/
def settledBefore : Nat → Scan → List Token
  | 0, s => s.settled
  | fuel + 1, s =>
    match s.approach.dropStale with
    | .error _ => s.settled
    | .ok next =>
      match next.unwind.cursor.rest with
      | [] => s.settled
      | ch :: rest =>
        match next.unwind.token ch rest with
        | .error _ => s.settled
        | .ok next => settledBefore fuel next

end Scan

namespace Token

def ofText (cs : List Char) : Except Fault (List Token) := do
  let s ← (Scan.start cs).readAll (cs.length + 1)
  return s.tokens.reverse

/-- The tokens of a text that is broken, as far as nodes can be built from them. -/
def ofBroken (cs : List Char) : List Token :=
  (Scan.start cs).settledBefore (cs.length + 1) ++ [.broken]

end Token

end CqlWorkload.Yaml
