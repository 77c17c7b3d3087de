import CqlWorkload.Pattern.Basic

/-!
# Matching

A pattern takes a spot of a text, which is what is left of it together with the
groups that were matched, to the list of spots that may lie behind it.  The
list has the order in which they are tried, each of them once.  A pattern matches
a whole text when nothing is left at one of them.

**Repetition.** Behind the least number of rounds, a greedy repetition tries
another round before it stops and a lazy one stops first.  A round that begins
where the one before it began is not made, so an empty round is the last one.
A possessive repetition goes on from the first match of every round.

**Order.** It matters for what looks, atomic groups and possessive repetitions
settle on, and for the text of a group.
-/

namespace CqlWorkload.Pattern

/-- Where a group began and ended when it was passed last.  A group that was begun
again has the end of its earlier passage. -/
structure Passage where
  number : Nat
  start : Nat
  stop : Option Nat
  deriving DecidableEq

/-- What is left of a text, and the groups that were passed on the way. -/
structure Spot where
  rest : List Char
  passages : List Passage
  deriving DecidableEq

namespace Spot

/-- How far into the text a spot is. -/
def place (whole : List Char) (s : Spot) : Nat := whole.length - s.rest.length

def passage? (s : Spot) (number : Nat) : Option Passage :=
  s.passages.find? (·.number == number)

def setPassage (s : Spot) (passage : Passage) : Spot :=
  { s with passages := passage :: s.passages.filter (·.number != passage.number) }

/-- Begin a group. -/
def beginGroup (whole : List Char) (s : Spot) (number : Nat) : Spot :=
  s.setPassage ⟨number, s.place whole, (s.passage? number).bind (·.stop)⟩

/-- End a group where it began at a place. -/
def endGroup (whole : List Char) (s : Spot) (number start : Nat) : Spot :=
  s.setPassage ⟨number, start, some (s.place whole)⟩

/-- The text that a group has matched, if any. -/
def matched? (whole : List Char) (s : Spot) (number : Nat) : Option (List Char) :=
  match s.passage? number with
  | some ⟨_, start, some stop⟩ =>
    if start ≤ stop then some ((whole.drop start).take (stop - start)) else none
  | _ => none

end Spot

/-- Is there a word character on exactly one side of this place? -/
def isEdge (isWord : Char → Bool) (before rest : List Char) : Bool :=
  (before.head?.elim false isWord) != (rest.head?.elim false isWord)

/-- Is a mark at the place where a rest of a text begins? -/
def Mark.holds (whole rest : List Char) (m : Mark) : Bool :=
  let before := (whole.take (whole.length - rest.length)).reverse
  match m with
  | .start lines => before.isEmpty || (lines && before.head? == some '\n')
  | .finish lines => rest.isEmpty || rest == ['\n'] || (lines && rest.head? == some '\n')
  | .last => rest.isEmpty
  | .edge ascii inside =>
    -- An empty text has neither edges nor places that are none.
    !whole.isEmpty && isEdge (if ascii then isAsciiWord else Text.isWord) before rest == inside

/-- What follows a text that is there once more. -/
def behindRepeated? (casing : Casing) : List Char → List Char → Option (List Char)
  | [], cs => some cs
  | _ :: _, [] => none
  | p :: ps, c :: cs => if casing.repeats p c then behindRepeated? casing ps cs else none

/-! ## Repetition -/

section Repetition

variable (step : Spot → List Spot)

/-- Make so many rounds. -/
def rounds : Nat → List Spot → List Spot
  | 0, spots => spots
  | n + 1, spots => if spots.isEmpty then [] else rounds n (spots.flatMap step).eraseDups

/-- The spots that further rounds lead to.  Those that were gone on from before, with
as many rounds left, lead to nothing new. -/
def further (lazy : Bool) : Nat → Option Nat → Option Nat → Spot →
    List (Option Nat × Spot) → List Spot × List (Option Nat × Spot)
  | 0, _, _, s, seen => ([s], seen)
  | fuel + 1, left, last, s, seen =>
    if left == some 0 || last == some s.rest.length then ([s], seen)
    else if seen.contains (left, s) then ([], seen)
    else
      let (found, seen) := (step s).foldl (fun acc t =>
        let (more, seen) :=
          further lazy fuel (left.map (· - 1)) (some s.rest.length) t acc.2
        (acc.1 ++ more, seen)) ([], (left, s) :: seen)
      (if lazy then s :: found else found ++ [s], seen)

/-- Go on from the first match of every round. -/
def firstRounds : Nat → Spot → Option Spot
  | 0, s => some s
  | n + 1, s => (step s).head?.bind (firstRounds n)

def furtherFirst : Nat → Option Nat → Option Nat → Spot → Spot
  | 0, _, _, s => s
  | fuel + 1, left, last, s =>
    if left == some 0 || last == some s.rest.length then s
    else
      match (step s).head? with
      | none => s
      | some t => furtherFirst fuel (left.map (· - 1)) (some s.rest.length) t

/-- The spots behind a repetition. -/
def repeated (choice : Choice) (least : Nat) (most : Option Nat) (s : Spot) : List Spot :=
  let left := most.map (· - least)
  let fuel := s.rest.length + 2
  match choice with
  | .possessive => ((firstRounds step least s).map (furtherFirst step fuel left none)).toList
  | choice =>
    ((rounds step least [s]).foldl (fun acc t =>
      let (more, seen) := further step (choice == .lazy) fuel left none t acc.2
      (acc.1 ++ more, seen)) ([], [])).1.eraseDups

end Repetition

/-! ## Patterns -/

/-- The spots that may lie behind a pattern, in the order in which they are tried. -/
def spots (whole : List Char) : Pattern → Spot → List Spot
  | .empty, s => [s]
  | .any breaks, s =>
    match s.rest with
    | [] => []
    | c :: rest => if c = '\n' && !breaks then [] else [{ s with rest := rest }]
  | .one casing negated items, s =>
    match s.rest with
    | [] => []
    | c :: rest =>
      if items.any (·.holds casing c) != negated then [{ s with rest := rest }] else []
  | .seq p q, s => ((spots whole p s).flatMap (spots whole q)).eraseDups
  | .alt p q, s => (spots whole p s ++ spots whole q s).eraseDups
  | .rep choice p least most, s => repeated (spots whole p) choice least most s
  | .mark m, s => if m.holds whole s.rest then [s] else []
  | .look ahead inside p, s =>
    let place := s.place whole
    let start : Option Spot :=
      if ahead then some s
      else if p.width.least ≤ place then
        some { s with rest := whole.drop (place - p.width.least) }
      else none
    match start.bind fun t => (spots whole p t).head? with
    | some found => if inside then [{ found with rest := s.rest }] else []
    | none => if inside then [] else [s]
  | .group number p, s =>
    ((spots whole p (s.beginGroup whole number)).map
      fun t => t.endGroup whole number (s.place whole)).eraseDups
  | .back casing number _, s =>
    match (s.matched? whole number).bind fun cs => behindRepeated? casing cs s.rest with
    | some rest => [{ s with rest := rest }]
    | none => []
  | .atomic p, s => (spots whole p s).head?.toList
  | .given number p q, s =>
    if (s.matched? whole number).isSome then spots whole p s else spots whole q s

def matches? (p : Pattern) (s : String) : Bool :=
  (spots s.toList p ⟨s.toList, []⟩).any (·.rest.isEmpty)

end CqlWorkload.Pattern
