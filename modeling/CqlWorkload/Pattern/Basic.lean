import CqlWorkload.Text.Case
import CqlWorkload.Text.Word

/-!
# Patterns

A pattern is an expression over single characters, built with sequence, choice
and repetition, with marks for places in the text and with looks at the text in
front of a place and behind it.  A group remembers what it matched; other parts
of the pattern may ask for the same text again, or whether there is any.

**Modes.** The flags of a pattern say how its parts are meant: whether case is
ignored, whether classes hold ASCII characters only, and what lines do to `.`,
`^` and `$`.

**Widths.** A part of a pattern takes a least and a greatest number of
characters.  A look behind a place begins at a fixed width from it.
-/

namespace CqlWorkload

namespace Pattern

/-- How a character is compared with the one of a pattern. -/
inductive Casing
  | exact
  /-- The case of ASCII letters is ignored. -/
  | ascii
  /-- The case of all letters is ignored. -/
  | full
  deriving DecidableEq

/-- A member of a character set. -/
inductive Item
  | char (c : Char)
  /-- A code that no character has. -/
  | noChar
  | range (first last : Nat)
  | word (ascii inside : Bool)
  | digit (ascii inside : Bool)
  | blank (ascii inside : Bool)
  deriving DecidableEq

/-- Is a character the same as the one of a pattern when case is ignored? -/
def isLike (p c : Char) : Bool := (Text.likeLower p).contains (Text.lower c).toNat

namespace Casing

/-- Is a character the one of a pattern? -/
def holds : Casing → Char → Char → Bool
  | .exact, p, c => p == c
  | .ascii, p, c => p.toLower == c.toLower
  | .full, p, c => isLike p c

/-- Is a character the one at the same place of a text that was matched before? -/
def repeats : Casing → Char → Char → Bool
  | .exact, p, c => p == c
  | .ascii, p, c => p.toLower == c.toLower
  | .full, p, c => Text.lower p == Text.lower c

/-- All characters that are the same as the given one. -/
def variants : Casing → Char → List Char
  | .exact, c => [c]
  | .ascii, c => [c, c.toLower, c.toUpper]
  | .full, c => Text.alike c

end Casing

def isAsciiWord (c : Char) : Bool := c.isAlphanum || c == '_'

def isAsciiBlank (c : Char) : Bool := c == ' ' || ('\t' ≤ c && c ≤ '\r')

/-- Does a member of a set hold a character? -/
def Item.holds (casing : Casing) : Item → Char → Bool
  | .char p, c => casing.holds p c
  | .noChar, _ => false
  | .range first last, c => (casing.variants c).any fun a => first ≤ a.toNat && a.toNat ≤ last
  | .word ascii inside, c => (if ascii then isAsciiWord c else Text.isWord c) == inside
  | .digit ascii inside, c => (if ascii then c.isDigit else (Text.digitValue? c).isSome) == inside
  | .blank ascii inside, c => (if ascii then isAsciiBlank c else Text.isBlank c) == inside

/-- A place in a text. -/
inductive Mark
  /-- The start of the text, or of any of its lines. -/
  | start (lines : Bool)
  /-- The end of the text, also before a last line break, or of any of its lines. -/
  | finish (lines : Bool)
  /-- The end of the text. -/
  | last
  /-- Word characters stand on exactly one side, or on both or none. -/
  | edge (ascii inside : Bool)
  deriving DecidableEq

/-- What a repetition tries first, and whether it tries anything else. -/
inductive Choice
  | greedy
  | lazy
  | possessive
  deriving DecidableEq

/-- The least and the greatest number of characters that something takes. -/
structure Width where
  least : Nat
  most : Nat
  deriving DecidableEq

end Pattern

/-- An expression that matches texts. -/
inductive Pattern
  | empty
  /-- Any character, line breaks included or not. -/
  | any (breaks : Bool)
  | one (casing : Pattern.Casing) (negated : Bool) (items : List Pattern.Item)
  | seq (p q : Pattern)
  | alt (p q : Pattern)
  | rep (choice : Pattern.Choice) (p : Pattern) (least : Nat) (most : Option Nat)
  | mark (m : Pattern.Mark)
  /-- A look in front of a place or behind it, for something that is there or not. -/
  | look (ahead inside : Bool) (p : Pattern)
  | group (number : Nat) (p : Pattern)
  /-- What a group has matched, once more. -/
  | back (casing : Pattern.Casing) (number : Nat) (width : Pattern.Width)
  /-- The first match only. -/
  | atomic (p : Pattern)
  /-- One of two patterns, as a group has matched something or not. -/
  | given (number : Nat) (p q : Pattern)

namespace Pattern

/-- What counts as a width without bound. -/
def endless : Nat := 18446744073709551616

def width : Pattern → Width
  | .any _ | .one .. => ⟨1, 1⟩
  | .seq p q => ⟨p.width.least + q.width.least, p.width.most + q.width.most⟩
  | .alt p q | .given _ p q => ⟨min p.width.least q.width.least, max p.width.most q.width.most⟩
  | .rep _ p least most =>
    ⟨p.width.least * least,
      match most with
      | some most => p.width.most * most
      | none => if p.width.most = 0 then 0 else endless⟩
  | .group _ p | .atomic p => p.width
  | .back _ _ width => width
  | .empty | .mark _ | .look .. => ⟨0, 0⟩

/-- The groups that other parts of a pattern ask for. -/
def asked : Pattern → List Nat
  | .seq p q | .alt p q => p.asked ++ q.asked
  | .rep _ p _ _ | .look _ _ p | .group _ p | .atomic p => p.asked
  | .back _ number _ => [number]
  | .given number p q => number :: (p.asked ++ q.asked)
  | _ => []

end Pattern
end CqlWorkload
