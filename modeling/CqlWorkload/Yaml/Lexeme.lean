import CqlWorkload.Number.Digit
import CqlWorkload.Number.Reader
import CqlWorkload.Text.Utf8
import CqlWorkload.Yaml.Cursor
import CqlWorkload.Yaml.Fault

/-!
# Lexemes

The pieces of a YAML text that hold more than an indicator: scalars in their five
styles, anchors, tags and directives.  Each is read from a cursor in front of it and
yields what it means and the cursor behind it.

**Folding.** Inside a scalar that is not a literal block a single line break counts
as a blank, and of several breaks the first does not count.
-/

namespace CqlWorkload.Yaml.Lexeme

/-- Refuse the text unless a condition holds. -/
def demand (condition : Bool) : Except Fault Unit :=
  if condition then .ok () else .error .malformed

/-- What a break and the breaks of the empty lines behind it count as. -/
def folded (first : Char) (others : List Char) : List Char :=
  if first != '\n' then first :: others else if others.isEmpty then [' '] else others

/-! ## Plain scalars -/

/-- The characters that end a plain scalar inside brackets. -/
def flowIndicators : List Char := [',', '?', '[', ']', '\x7b', '\x7d']

/-- The characters behind a colon that make it an indicator inside brackets. -/
def flowEnds : List Char := [',', '[', ']', '\x7b', '\x7d']

/-- Does a chunk of a plain scalar end in front of this character? -/
def endsChunk (inFlow : Bool) (c : Char) (rest : List Char) : Bool :=
  endsWord [c] ||
    (c == ':' && (endsWord rest || (inFlow && rest.head?.any flowEnds.contains))) ||
    (inFlow && flowIndicators.contains c)

/-- The chunk of a plain scalar at the front of a text. -/
def chunk (inFlow : Bool) : List Char → List Char
  | [] => []
  | c :: rest => if endsChunk inFlow c rest then [] else c :: chunk inFlow rest

/-- The breaks of the empty lines in a plain scalar, or nothing if a mark between
documents follows one of them. -/
def plainBreaks : Nat → Cursor → Option (List Char) × Cursor
  | 0, c => (some [], c)
  | fuel + 1, c =>
    let c := c.skipBlanks
    match c.takeBreak? with
    | none => (some [], c)
    | some (found, c) =>
      if c.atDocumentMark then (none, c)
      else
        match plainBreaks fuel c with
        | (others, c) => (others.map (found :: ·), c)

/-- What stands between two chunks, and whether it crosses a line. -/
def plainGap (c : Cursor) : List Char × Bool × Cursor :=
  let spaces := c.run (· == ' ')
  let c := c.skipBlanks
  match c.takeBreak? with
  | none => (spaces, false, c)
  | some (first, c) =>
    if c.atDocumentMark then ([], true, c)
    else
      match plainBreaks (c.rest.length + 1) c with
      | (none, c) => ([], true, c)
      | (some others, c) => (folded first others, true, c)

/-- A plain scalar that goes on behind a gap, and whether it ends on a line that a
key may begin on. -/
def plainFrom (inFlow : Bool) (level : Nat) :
    Nat → Bool → List Char → Cursor → List Char × Bool × Cursor
  | 0, crossed, _, c => ([], crossed, c)
  | fuel + 1, crossed, gap, c =>
    let found := if c.sees '#' then [] else chunk inFlow c.rest
    if found.isEmpty then ([], crossed, c)
    else
      match plainGap (Cursor.skip found.length c) with
      | (next, crossed, c) =>
        if next.isEmpty || c.sees '#' || (!inFlow && c.column < level) then
          (gap ++ found, crossed, c)
        else
          match plainFrom inFlow level fuel crossed next c with
          | (text, crossed, c) => (gap ++ found ++ text, crossed, c)

/-- The plain scalar at a cursor.  Outside of brackets its lines have to be at least
as deep as `level`. -/
def plain (inFlow : Bool) (level : Nat) (c : Cursor) : List Char × Bool × Cursor :=
  plainFrom inFlow level (c.rest.length + 1) false [] c

/-! ## Quoted scalars -/

def isGap (c : Char) : Bool := c == ' ' || c == '\t'

/-- The breaks of the empty lines in a quoted scalar. -/
def quotedBreaks : Nat → Cursor → Except Fault (List Char × Cursor)
  | 0, _ => .error .malformed
  | fuel + 1, c =>
    if c.atDocumentMark then .error .malformed
    else
      let c := c.skipWhile isGap
      match c.takeBreak? with
      | none => .ok ([], c)
      | some (found, c) => do
        let (others, c) ← quotedBreaks fuel c
        return (found :: others, c)

/-- What stands between two words of a quoted scalar. -/
def quotedGap (c : Cursor) : Except Fault (List Char × Cursor) :=
  let spaces := c.run isGap
  let c := c.skipWhile isGap
  match c.takeBreak? with
  | none => .ok (spaces, c)
  | some (first, c) => do
    let (others, c) ← quotedBreaks (c.rest.length + 1) c
    return (folded first others, c)

/-- The characters that escape letters stand for. -/
def escapes : List (Char × Char) := [
  ('0', '\x00'), ('a', '\x07'), ('b', '\x08'), ('t', '\t'), ('\t', '\t'), ('n', '\n'),
  ('v', '\x0b'), ('f', '\x0c'), ('r', '\r'), ('e', '\x1b'), (' ', ' '), ('"', '"'),
  ('\\', '\\'), ('/', '/'), ('N', '\x85'), ('_', '\xa0'), ('L', '\u2028'), ('P', '\u2029')]

/-- The number of digits that an escape letter takes. -/
def codeLength : Char → Option Nat
  | 'x' => some 2
  | 'u' => some 4
  | 'U' => some 8
  | _ => none

/-- The number of exactly so many hexadecimal digits at the front. -/
def hexNumber? (count : Nat) (cs : List Char) : Option Nat :=
  let digits := cs.take count
  if digits.length = count then Digit.number? 16 digits else none

/-- The character of a code; the halves of surrogate pairs are no characters here. -/
def charOfCode (code : Nat) : Except Fault Char :=
  if 0xd800 ≤ code ∧ code ≤ 0xdfff then .error .unsupported
  else if code < 0x110000 then .ok (Char.ofNat code)
  else if 0x7fffffff < code then .error .wideCode
  else .error (.noValue "chr() arg not in range(0x110000)")

/-- The characters that an escape stands for; the cursor is behind its backslash. -/
def escape (c : Cursor) : Except Fault (List Char × Cursor) :=
  match c.rest with
  | [] => .error .malformed
  | ch :: rest =>
    match escapes.lookup ch, codeLength ch with
    | some value, _ => .ok ([value], c.next)
    | none, some count =>
      match hexNumber? count rest with
      | none => .error .malformed
      | some code => do return ([← charOfCode code], Cursor.skip (count + 1) c)
    | none, none =>
      match c.takeBreak? with
      | none => .error .malformed
      | some (_, c) => quotedBreaks (c.rest.length + 1) c

/-- The rest of a quoted scalar up to its closing quote. -/
def quotedFrom (double : Bool) : Nat → Cursor → Except Fault (List Char × Cursor)
  | 0, _ => .error .malformed
  | fuel + 1, c =>
    match c.rest with
    | [] => .error .malformed
    | ch :: rest =>
      if ch = (if double then '"' else '\'') then
        if !double && rest.head? == some '\'' then do
          let (text, c) ← quotedFrom double fuel (Cursor.skip 2 c)
          return ('\'' :: text, c)
        else .ok ([], c.next)
      else if endsWord [ch] then do
        let (gap, c) ← quotedGap c
        let (text, c) ← quotedFrom double fuel c
        return (gap ++ text, c)
      else if double && ch = '\\' then do
        let (value, c) ← escape c.next
        let (text, c) ← quotedFrom double fuel c
        return (value ++ text, c)
      else do
        let (text, c) ← quotedFrom double fuel c.next
        return (ch :: text, c)

/-- The quoted scalar at a cursor. -/
def quoted (double : Bool) (c : Cursor) : Except Fault (List Char × Cursor) :=
  quotedFrom double (c.rest.length + 1) c.next

/-! ## Block scalars -/

/-- What happens to the breaks at the end of a block scalar. -/
inductive Chomp
  | strip
  | clip
  | keep
  deriving DecidableEq

def chompMark? : Option Char → Option Chomp
  | some '+' => some .keep
  | some '-' => some .strip
  | _ => none

/-- The depth given by a digit, which must not be zero. -/
def depthMark (c : Cursor) : Except Fault (Option Nat × Cursor) :=
  match c.peek?.bind (Digit.value? 10) with
  | none => .ok (none, c)
  | some 0 => .error .malformed
  | some n => .ok (some n, c.next)

/-- The marks behind the indicator of a block scalar, in either order. -/
def blockMarks (c : Cursor) : Except Fault ((Chomp × Option Nat) × Cursor) :=
  match chompMark? c.peek? with
  | some chomp => do
    let (depth, c) ← depthMark c.next
    return ((chomp, depth), c)
  | none => do
    let (depth, c) ← depthMark c
    match depth, chompMark? c.peek? with
    | some _, some chomp => return ((chomp, depth), c.next)
    | _, _ => return ((.clip, depth), c)

/-- The end of a line that holds nothing more than a comment. -/
def lineEnd (c : Cursor) : Except Fault Cursor := do
  let c := c.skipBlanks.skipComment
  demand (endsLine c.rest)
  return c.next

/-- The breaks of empty lines, with the depth of the deepest of them and of the line
behind them. -/
def leadingLines : Nat → Nat → Cursor → List Char × Nat × Cursor
  | 0, deepest, c => ([], deepest, c)
  | fuel + 1, deepest, c =>
    let c := c.skipBlanks
    let deepest := max deepest c.column
    match c.takeBreak? with
    | none => ([], deepest, c)
    | some (found, c) =>
      match leadingLines fuel deepest c with
      | (others, deepest, c) => (found :: others, deepest, c)

/-- The breaks of empty lines in a block of a known depth. -/
def blockBreaks (indent : Nat) : Nat → Cursor → List Char × Cursor
  | 0, c => ([], c)
  | fuel + 1, c =>
    let c := c.skipIndent indent
    match c.takeBreak? with
    | none => ([], c)
    | some (found, c) =>
      match blockBreaks indent fuel c with
      | (others, c) => (found :: others, c)

/-- Does a line of the block begin here? -/
def atBlockLine (indent : Nat) (c : Cursor) : Bool := c.column == indent && !c.atEnd

/-- What stands between two lines of a block that have breaks of empty lines between
them. -/
def lineJoint (isFolded firstDeep secondDeep : Bool) (last others : List Char) : List Char :=
  if isFolded && last == ['\n'] && !firstDeep && !secondDeep then
    (if others.isEmpty then [' '] else [])
  else last

/-- The lines of a block behind some empty lines: their text, the break at their end
and the breaks of the empty lines behind them. -/
def blockLines (isFolded : Bool) (indent : Nat) :
    Nat → List Char → Cursor → List Char × List Char × List Char × Cursor
  | 0, before, c => ([], [], before, c)
  | fuel + 1, before, c =>
    if !atBlockLine indent c then ([], [], before, c)
    else
      let line := c.run (!isBreak ·)
      let deep := line.head?.any isGap
      let c := Cursor.skip line.length c
      let last := match c.takeBreak? with
        | none => []
        | some (found, _) => [found]
      match blockBreaks indent (c.rest.length + 1) c.next with
      | (others, c) =>
        if atBlockLine indent c then
          let joint := lineJoint isFolded deep (c.peek?.any isGap) last others
          match blockLines isFolded indent fuel others c with
          | (text, last, others, c) => (before ++ line ++ joint ++ text, last, others, c)
        else (before ++ line, last, others, c)

/-- The block scalar at a cursor, inside a block of a level. -/
def block (isFolded : Bool) (level : Nat) (c : Cursor) : Except Fault (List Char × Cursor) := do
  let ((chomp, depth), c) ← blockMarks c.next
  demand (endsLine c.rest || c.sees ' ')
  let c ← lineEnd c
  let least := max 1 level
  let fuel := c.rest.length + 1
  let (indent, before, c) := match depth with
    | some depth =>
      match blockBreaks (least + depth - 1) fuel c with
      | (before, c) => (least + depth - 1, before, c)
    | none =>
      match leadingLines fuel 0 c with
      | (before, deepest, c) => (max least deepest, before, c)
  match blockLines isFolded indent fuel before c with
  | (text, last, others, c) =>
    let ending := match chomp with
      | .strip => []
      | .clip => last
      | .keep => last ++ others
    return (text ++ ending, c)

/-! ## Anchors, tags and directives -/

/-- The characters that may follow the name of an anchor. -/
def anchorEnds : List Char := ['?', ':', ',', ']', '\x7d', '%', '@', '\x60']

/-- The name of the anchor or alias at a cursor. -/
def anchor (c : Cursor) : Except Fault (String × Cursor) := do
  let name := c.next.run isNameChar
  let c := c.next.skipWhile isNameChar
  demand (!name.isEmpty && (endsWord c.rest || c.peek?.any anchorEnds.contains))
  return (String.ofList name, c)

/-- The characters of addresses besides letters, digits and escapes. -/
def uriMarks : List Char := "-;/?:@&=+$,_.!~*'()[]".toList

/-- The bytes of the escapes at the front. -/
def uriBytes : Nat → Cursor → Except Fault (List Nat × Cursor)
  | 0, c => .ok ([], c)
  | fuel + 1, c =>
    match c.rest with
    | '%' :: rest =>
      match hexNumber? 2 rest with
      | none => .error .malformed
      | some byte => do
        let (bytes, c) ← uriBytes fuel (Cursor.skip 3 c)
        return (byte :: bytes, c)
    | _ => .ok ([], c)

/-- The characters of an address. -/
def uriFrom : Nat → Cursor → Except Fault (List Char × Cursor)
  | 0, c => .ok ([], c)
  | fuel + 1, c =>
    match c.rest with
    | [] => .ok ([], c)
    | ch :: _ =>
      if ch = '%' then do
        let (bytes, c) ← uriBytes (c.rest.length + 1) c
        match Utf8.charsFrom 0 0 bytes with
        | .error _ => .error .malformed
        | .ok found =>
          let (text, c) ← uriFrom fuel c
          return (found ++ text, c)
      else if ch.isAlphanum || uriMarks.contains ch then do
        let (text, c) ← uriFrom fuel c.next
        return (ch :: text, c)
      else .ok ([], c)

/-- An address, which must not be empty. -/
def uri (c : Cursor) : Except Fault (String × Cursor) := do
  let (text, c) ← uriFrom (c.rest.length + 1) c
  demand (!text.isEmpty)
  return (String.ofList text, c)

/-- A handle: a mark by itself, or a name between two marks. -/
def handle (c : Cursor) : Except Fault (String × Cursor) := do
  demand (c.sees '!')
  let c := c.next
  if c.sees ' ' then return ("!", c)
  else
    let name := c.run isNameChar
    let c := c.skipWhile isNameChar
    demand (c.sees '!')
    return (String.ofList ('!' :: name ++ ['!']), c.next)

/-- A tag as it is written: in full, or below a handle. -/
structure WrittenTag where
  handle : Option String
  suffix : String

/-- Does a second mark follow in the word? -/
def hasMark (cs : List Char) : Bool :=
  (cs.takeWhile fun c => c != ' ' && !isBreak c).contains '!'

def tag (c : Cursor) : Except Fault (WrittenTag × Cursor) := do
  let inner := c.next
  let (found, c) ←
    if inner.sees '<' then do
      let (suffix, c) ← uri inner.next
      demand (c.sees '>')
      pure (WrittenTag.mk none suffix, c.next)
    else if endsWord inner.rest then pure (WrittenTag.mk none "!", inner)
    else if hasMark inner.rest then do
      let (handle, c) ← handle c
      let (suffix, c) ← uri c
      pure (WrittenTag.mk (some handle) suffix, c)
    else do
      let (suffix, c) ← uri inner
      pure (WrittenTag.mk (some "!") suffix, c)
  demand (endsLine c.rest || c.sees ' ')
  return (found, c)

/-- What a directive says. -/
inductive Directive
  | version (major : Nat)
  | handle (handle address : String)
  | other

/-- The digits of a number, which must not be empty nor too many. -/
def number (c : Cursor) : Except Fault (Nat × Cursor) := do
  let digits := c.run Char.isDigit
  demand (!digits.isEmpty)
  if Digit.limit < digits.length then .error (.tooManyDigits digits.length)
  return (NumberText.digitsValue (NumberText.takeDigits digits).1, c.skipWhile Char.isDigit)

/-- The version behind the name of its directive. -/
def version (c : Cursor) : Except Fault (Directive × Cursor) := do
  let (major, c) ← number c.skipBlanks
  demand (c.sees '.')
  let (_, c) ← number c.next
  demand (endsLine c.rest || c.sees ' ')
  return (.version major, c)

/-- The handle and the address behind the name of their directive. -/
def handleFor (c : Cursor) : Except Fault (Directive × Cursor) := do
  let (name, c) ← handle c.skipBlanks
  demand (c.sees ' ')
  let (address, c) ← uri c.skipBlanks
  demand (endsLine c.rest || c.sees ' ')
  return (.handle name address, c)

def directive (c : Cursor) : Except Fault (Directive × Cursor) := do
  let name := c.next.run isNameChar
  let c := c.next.skipWhile isNameChar
  demand (!name.isEmpty && (endsLine c.rest || c.sees ' '))
  let (found, c) ← match String.ofList name with
    | "YAML" => version c
    | "TAG" => handleFor c
    | _ => pure (Directive.other, c.skipWhile (!isBreak ·))
  return (found, ← lineEnd c)

end CqlWorkload.Yaml.Lexeme
