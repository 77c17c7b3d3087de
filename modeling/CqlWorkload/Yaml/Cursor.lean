import CqlWorkload.Yaml.Character

/-!
# Cursors

A cursor is a place in a text: what follows it, and the line and column where it
stands.  Reading moves it forward a character at a time; a byte order mark takes no
column.
-/

namespace CqlWorkload.Yaml

structure Cursor where
  rest : List Char
  line : Nat
  column : Nat
  /-- Number of characters before. -/
  index : Nat

namespace Cursor

def start (cs : List Char) : Cursor := ⟨cs, 0, 0, 0⟩

def next (c : Cursor) : Cursor :=
  match c.rest with
  | [] => c
  | ch :: rest =>
    if isBreak ch then ⟨rest, c.line + 1, 0, c.index + 1⟩
    else if ch = byteOrderMark then ⟨rest, c.line, c.column, c.index + 1⟩
    else ⟨rest, c.line, c.column + 1, c.index + 1⟩

def skip : Nat → Cursor → Cursor
  | 0, c => c
  | n + 1, c => skip n c.next

def peek? (c : Cursor) : Option Char := c.rest.head?

/-- Does a character follow? -/
def sees (c : Cursor) (ch : Char) : Bool := c.rest.head? == some ch

/-- The characters of a class at the front. -/
def run (c : Cursor) (p : Char → Bool) : List Char := c.rest.takeWhile p

/-- The cursor behind the characters of a class at the front. -/
def skipWhile (c : Cursor) (p : Char → Bool) : Cursor := skip (c.run p).length c

/-- The cursor behind the blanks at the front. -/
def skipBlanks (c : Cursor) : Cursor := c.skipWhile (· == ' ')

/-- The cursor behind the blanks at the front that stand before a column. -/
def skipIndent (c : Cursor) (indent : Nat) : Cursor :=
  skip (min (indent - c.column) (c.run (· == ' ')).length) c

/-- The cursor behind a comment at the front, at the end of its line. -/
def skipComment (c : Cursor) : Cursor :=
  if c.sees '#' then c.skipWhile (!isBreak ·) else c

/-- A break as it counts in the text of a scalar. -/
def breakValue (ch : Char) : Char := if ch = '\x85' then '\n' else ch

/-- The break at the front and what is behind it. -/
def takeBreak? (c : Cursor) : Option (Char × Cursor) :=
  match c.rest with
  | [] => none
  | ch :: _ => if isBreak ch then some (breakValue ch, c.next) else none

def atEnd (c : Cursor) : Bool := c.rest.isEmpty

/-- Does a mark between documents begin here? -/
def atDocumentMark (c : Cursor) : Bool := isDocumentMark c.rest

end Cursor
end CqlWorkload.Yaml
