import CqlWorkload.Yaml.Character
import CqlWorkload.Yaml.Tag

/-!
# Styles of texts

A text is written plainly, in single quotes, in double quotes, or as a literal
block of lines.  Which styles can show a text at all depends on its characters and
on where its blanks stand; a text of several lines is written as a literal block
whenever it can be.
-/

namespace CqlWorkload.Yaml

inductive Style
  | plain
  | single
  | double
  | literal
  deriving DecidableEq

namespace Style

/-- The characters that cannot begin a plain text. -/
def indicators : List Char :=
  ['#', ',', '[', ']', '\x7b', '\x7d', '&', '*', '!', '|', '>', '\'', '"', '%', '@', '\x60']

/-- Is no colon followed and no number sign preceded by a blank? -/
def isInnerPlain (afterBlank : Bool) : List Char → Bool
  | [] => true
  | c :: rest =>
    !(c == ':' && endsWord rest) && !(c == '#' && afterBlank) &&
      isInnerPlain (endsWord [c]) rest

/-- Can the text begin without being taken for something else? -/
def hasPlainStart (cs : List Char) : Bool :=
  match cs with
  | [] => false
  | c :: rest =>
    !indicators.contains c && !((c == '?' || c == '-') && endsWord rest) &&
      !(['-', '-', '-'].isPrefixOf cs || ['.', '.', '.'].isPrefixOf cs)

/-- Does a blank stand at either end? -/
def hasOuterBlank (cs : List Char) : Bool := cs.head? == some ' ' || cs.getLast? == some ' '

/-- Does a character of one class come right before one of another? -/
def hasPair (p q : Char → Bool) : List Char → Bool
  | a :: b :: rest => (p a && q b) || hasPair p q (b :: rest)
  | _ => false

def isSpace (c : Char) : Bool := c == ' '

/-- Is no character in need of an escape, and no blank at the end of a line? -/
def isClean (cs : List Char) : Bool := !cs.any isSpecial && !hasPair isSpace isBreak cs

/-- Can the text be written plainly? -/
def allowsPlain (cs : List Char) : Bool :=
  hasPlainStart cs && isInnerPlain true cs && !hasOuterBlank cs && !cs.any isBreak &&
    !cs.any isSpecial

/-- Can the text be written in single quotes? -/
def allowsSingle (cs : List Char) : Bool := isClean cs && !hasPair isBreak isSpace cs

/-- Can the text be written as a literal block? -/
def allowsLiteral (cs : List Char) : Bool :=
  isClean cs && cs.getLast? != none && cs.getLast? != some ' '

/-- The style that a text is written in. -/
def ofText (s : String) : Style :=
  let cs := s.toList
  if cs.contains '\n' then (if allowsLiteral cs then .literal else .double)
  else if allowsPlain cs && Tag.ofPlain s = .text then .plain
  else if allowsSingle cs then .single
  else .double

end Style
end CqlWorkload.Yaml
