import CqlWorkload.Yaml.Style

/-!
# Writing YAML

A document is a mapping.  It is written in blocks, an entry a line or more, two
columns deeper for every level.

**Width.** A text is broken at a single blank, or behind an escape, once its line
has reached the width.  The text of a key that shares the line with its value is
never broken.

**Keys.** A key that is empty, long or of several lines is announced by a question
mark and has its value on a line of its own.
-/

namespace CqlWorkload.Yaml

/-- The column from which on lines are broken. -/
def width : Nat := 120

/-- The columns by which a level is deeper than the one around it. -/
def indentStep : Nat := 2

def blanks (count : Nat) : List Char := List.replicate count ' '

/-- A new line with blanks in front. -/
def newLine (indent : Nat) : List Char := '\n' :: blanks indent

/-- Is there a character that is no blank? -/
def goesOn : List Char → Bool
  | [] => false
  | c :: _ => c != ' '

/-- A plain text from a column on, broken at single blanks. -/
def plainFrom (split : Bool) (indent : Nat) : Bool → Nat → List Char → List Char
  | _, _, [] => []
  | afterBlank, column, c :: rest =>
    if c = ' ' && split && !afterBlank && goesOn rest && width < column then
      newLine indent ++ plainFrom split indent true indent rest
    else c :: plainFrom split indent (c == ' ') (column + 1) rest

/-- The inside of single quotes from a column on.  A quote is written twice, and the
line behind a break is indented. -/
def singleFrom (split : Bool) (indent : Nat) : Option Char → Nat → List Char → List Char
  | before, _, [] => if before.any isBreak then blanks indent else []
  | before, column, c :: rest =>
    let atStart := before.any isBreak && !isBreak c
    let lead := if atStart then blanks indent else []
    let column := if atStart then indent else column
    if c = ' ' && split && before.any (· != ' ') && goesOn rest && width < column then
      lead ++ newLine indent ++ singleFrom split indent (some c) indent rest
    else if c = '\'' then
      lead ++ '\'' :: '\'' :: singleFrom split indent (some c) (column + 2) rest
    else if c = '\n' && !before.any isBreak then
      lead ++ '\n' :: '\n' :: singleFrom split indent (some c) 0 rest
    else lead ++ c :: singleFrom split indent (some c) (column + 1) rest

/-- Letters of the escapes that have one. -/
def escapeLetters : List (Char × Char) := [
  ('\x00', '0'), ('\x07', 'a'), ('\x08', 'b'), ('\t', 't'), ('\n', 'n'), ('\x0b', 'v'),
  ('\x0c', 'f'), ('\r', 'r'), ('\x1b', 'e'), ('"', '"'), ('\\', '\\'), ('\x85', 'N'),
  ('\u2028', 'L'), ('\u2029', 'P')]

/-- Does the character stand in double quotes as it is? -/
def isQuotable (c : Char) : Bool :=
  !(c == '"' || c == '\\' || isBreak c || c == byteOrderMark) &&
    (isPrintableAscii c || Text.inRanges [(0xa0, 0xd7ff), (0xe000, 0xfffd)] c)

def upperHex (size n : Nat) : List Char := (Text.hexText size n).map Char.toUpper

def escape (c : Char) : List Char :=
  match escapeLetters.lookup c with
  | some letter => ['\\', letter]
  | none =>
    if c.toNat ≤ 0xff then '\\' :: 'x' :: upperHex 2 c.toNat
    else if c.toNat ≤ 0xffff then '\\' :: 'u' :: upperHex 4 c.toNat
    else '\\' :: 'U' :: upperHex 8 c.toNat

/-- A break inside double quotes before some text; a blank that follows is escaped,
so that it is not taken for indentation. -/
def foldDouble (indent : Nat) (rest : List Char) : List Char :=
  '\\' :: newLine indent ++ (if rest.head? = some ' ' then ['\\'] else [])

/-- Column behind such a break. -/
def foldColumn (indent : Nat) (rest : List Char) : Nat :=
  indent + if rest.head? = some ' ' then 1 else 0

/-- The inside of double quotes from a column on.  `inner` is false at the first
character only, and `fresh` says that nothing stands on the line since the last
escape or break. -/
def doubleFrom (split : Bool) (indent : Nat) : Bool → Bool → Nat → List Char → List Char
  | _, _, _, [] => []
  | inner, fresh, column, c :: rest =>
    let mayFold := split && inner && !rest.isEmpty
    if isQuotable c then
      if mayFold && (c == ' ' || fresh) && width < column then
        foldDouble indent (c :: rest) ++
          c :: doubleFrom split indent true false (foldColumn indent (c :: rest) + 1) rest
      else c :: doubleFrom split indent true false (column + 1) rest
    else
      let written := escape c
      if mayFold && width < column + written.length - 1 then
        written ++ foldDouble indent rest ++
          doubleFrom split indent true true (foldColumn indent rest) rest
      else written ++ doubleFrom split indent true true (column + written.length) rest

/-- The marks of a literal block: the depth if it begins with a blank, and whether
the last break does not count or all last breaks count. -/
def literalMarks (cs : List Char) : List Char :=
  let depth := match cs with
    | c :: _ => if c == ' ' || isBreak c then ['2'] else []
    | [] => []
  let ending := match cs.reverse with
    | [] => []
    | [c] => if isBreak c then ['+'] else ['-']
    | c :: before :: _ =>
      if !isBreak c then ['-'] else if isBreak before then ['+'] else []
  depth ++ ending

/-- The lines of a literal block, every line that is not empty being indented. -/
def literalFrom (indent : Nat) : Bool → List Char → List Char
  | atStart, [] => if atStart then [] else ['\n']
  | atStart, c :: rest =>
    if isBreak c then c :: literalFrom indent true rest
    else (if atStart then blanks indent else []) ++ c :: literalFrom indent false rest

/-- A text from a column on; a literal block ends its last line. -/
def textFrom (split : Bool) (indent column : Nat) (s : String) : List Char :=
  let cs := s.toList
  match Style.ofText s with
  | .plain => plainFrom split indent false column cs
  | .single => '\'' :: singleFrom split indent none (column + 1) cs ++ ['\'']
  | .double => '"' :: doubleFrom split indent false true (column + 1) cs ++ ['"']
  | .literal => '|' :: literalMarks cs ++ '\n' :: literalFrom indent true cs

/-- A text and the end of its line. -/
def textLine (indent column : Nat) (s : String) : List Char :=
  textFrom true indent column s ++ if Style.ofText s = .literal then [] else ['\n']

/-- Characters of a key that count towards its length besides its own. -/
def keyMargin : Nat := 5

/-- Can a key share the line with its value? -/
def isSimpleKey (s : String) : Bool :=
  s != "" && !s.toList.any isBreak && s.length + keyMargin < 128

/-- Text of a value without parts, other than a text. -/
def plainScalar : Value → String
  | .null => "null"
  | .bool b => if b then "true" else "false"
  | .float x => FloatLayout.yaml.render x
  | value => value.plainText

mutual

/-- What stands behind an indicator, to the end of the line or of the block below it.
`inline` says that a block may begin on the line of the indicator. -/
def valueFrom (inline : Bool) (indent column : Nat) : Value → List Char
  | .text s => ' ' :: textLine (indent + indentStep) (column + 1) s
  | .list [] => " []\n".toList
  | .map [] => " \x7b\x7d\n".toList
  | .list (item :: rest) =>
    if inline then ' ' :: itemsFrom true (indent + indentStep) (item :: rest)
    else '\n' :: itemsFrom false indent (item :: rest)
  | .map (entry :: rest) =>
    if inline then ' ' :: entriesFrom true (indent + indentStep) (entry :: rest)
    else '\n' :: entriesFrom false (indent + indentStep) (entry :: rest)
  | value => ' ' :: (plainScalar value).toList ++ ['\n']

/-- The items of a list, an indicator in front of each; the first one may stand on a
line that is indented already. -/
def itemsFrom (placed : Bool) (indent : Nat) : List Value → List Char
  | [] => []
  | item :: rest =>
    (if placed then [] else blanks indent) ++ '-' :: valueFrom true indent (indent + 1) item ++
      itemsFrom false indent rest

def entriesFrom (placed : Bool) (indent : Nat) : List (Value × Value) → List Char
  | [] => []
  | (key, value) :: rest =>
    let name := key.plainText
    let lead := if placed then [] else blanks indent
    if isSimpleKey name then
      let written := textFrom false (indent + indentStep) indent name
      lead ++ written ++ ':' :: valueFrom false indent (indent + written.length + 1) value ++
        entriesFrom false indent rest
    else
      lead ++ '?' :: ' ' :: textLine (indent + indentStep) (indent + 2) name ++ blanks indent ++
        ':' :: valueFrom true indent (indent + 1) value ++ entriesFrom false indent rest

end

def write : Value → String
  | .map (entry :: rest) => String.ofList (entriesFrom false 0 (entry :: rest))
  | value => String.ofList ((valueFrom false 0 0 value).drop 1)

end CqlWorkload.Yaml
