import CqlWorkload.Text.Blank

/-!
# Characters of YAML

A YAML text is made of lines.  This module says which characters end a line,
which may stand in a text at all, and which can be shown as they are.

**Line breaks.** Besides the line feed there are three breaks of other scripts.
Carriage returns do not occur: the text of a file has line feeds in their place.
-/

namespace CqlWorkload.Yaml

/-- Does a character end a line? -/
def isBreak (c : Char) : Bool :=
  c == '\n' || c == '\x85' || c == '\u2028' || c == '\u2029'

/-- Does a word end here: at a blank, a break or the end of the text? -/
def endsWord : List Char → Bool
  | [] => true
  | c :: _ => c == ' ' || c == '\t' || isBreak c

/-- Does a line end here? -/
def endsLine : List Char → Bool
  | [] => true
  | c :: _ => isBreak c

/-- Is the character above ASCII and one that texts may hold? -/
def isForeign (c : Char) : Bool :=
  c == '\x85' || Text.inRanges [(0xa0, 0xd7ff), (0xe000, 0xfffd), (0x10000, 0x10ffff)] c

def isPrintableAscii (c : Char) : Bool := 0x20 ≤ c.toNat && c.toNat ≤ 0x7e

/-- May the character stand in a text? -/
def isAllowed (c : Char) : Bool :=
  c == '\t' || c == '\n' || isPrintableAscii c || isForeign c

/-- The mark that may stand at the beginning of a text and takes no column. -/
def byteOrderMark : Char := '\uFEFF'

/-- Can the character only be written by an escape? -/
def isSpecial (c : Char) : Bool :=
  !(c == '\n' || isPrintableAscii c ||
    (isForeign c && c != byteOrderMark && c.toNat != 0x10ffff))

/-- Three dashes or dots as a word: the marks between documents. -/
def beginsWithMark (mark : Char) : List Char → Bool
  | a :: b :: c :: rest => a == mark && b == mark && c == mark && endsWord rest
  | _ => false

/-- Does a line begin with a mark between documents? -/
def isDocumentMark (line : List Char) : Bool :=
  beginsWithMark '-' line || beginsWithMark '.' line

/-- May the character stand in the name of an anchor or a handle? -/
def isNameChar (c : Char) : Bool := c.isAlphanum || c == '-' || c == '_'

end CqlWorkload.Yaml
