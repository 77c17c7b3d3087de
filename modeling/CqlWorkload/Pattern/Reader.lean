import CqlWorkload.Number.Digit
import CqlWorkload.Number.Layout
import CqlWorkload.Pattern.Basic
import CqlWorkload.Text.Blank
import CqlWorkload.Text.Quoted

/-!
# Reading patterns

The written form of a pattern: literal characters, `.`, sets in brackets,
classes and other escapes, groups of all kinds, `|`, the repetitions `*`, `+`,
`?` and `{m,n}`, the marks `^` and `$`, and looks ahead and behind.  A written
pattern that has no meaning is reported with the place of the fault.

**Tokens.** A text is read token by token, a backslash with its following
character being one token.  A backslash at the end of the text is found out as
soon as it becomes the next token.

**Groups.** Groups are numbered as they are opened.  What was read of them so far
is kept, since other parts of a pattern refer to groups by number or by name.

**Counts.** Repetition counts that are too large or too long are no fault of the
pattern, but are complaints of other kinds.
-/

namespace CqlWorkload.Pattern

inductive Cause
  | endlessGroup
  | endlessSet
  | endlessComment
  | endlessName (closing : String)
  | missingName (what : String)
  | badName (name : String)
  | repeatedName (name : String) (number earlier : Nat)
  | unknownName (name : String)
  | nothingToRepeat
  | multipleRepeat
  | leastAboveMost
  | badRange (first last : String)
  | unbalanced
  | badEnd
  | badEscape (written : String)
  | shortEscape (written : String)
  | wideEscape (written : String)
  | missingBrace
  | noSuchCharacter (name : String)
  | noSuchGroup (number : Nat)
  | zeroGroup
  | openGroup
  | groupInsideBehind
  | manyBranches
  | endedEarly
  | unknownExtension (written : String)
  | unknownFlag
  | missingFlag
  | missingColon
  | flagsNotClosed
  | flagsNotFirst
  | localeFlag
  | clashingFlags
  | fixedFlag
  | globalFlagOn
  | globalFlagOff
  | flagOnAndOff
  | looseBehind
  | farBehind
  | repeatInTemplate (choice : Choice)
  -- not faults of the pattern
  | wideCount
  | longCount (digits : Nat)
  | asciiAndUnicode
  deriving DecidableEq

/-- What a complaint about a pattern is about: its form, a number that is too
large, or a value that makes no sense. -/
inductive Kind
  | form
  | overflow
  | value
  deriving DecidableEq

namespace Cause

def kind : Cause → Kind
  | .wideCount => .overflow
  | .longCount _ | .asciiAndUnicode => .value
  | _ => .form

def message : Cause → String
  | .endlessGroup => "missing ), unterminated subpattern"
  | .endlessSet => "unterminated character set"
  | .endlessComment => "missing ), unterminated comment"
  | .endlessName closing => s!"missing {closing}, unterminated name"
  | .missingName what => s!"missing {what}"
  | .badName name => "bad character in group name " ++ Text.quoted name
  | .repeatedName name number earlier =>
    "redefinition of group name " ++ Text.quoted name ++ " as group " ++
      FloatLayout.digitsText number ++ "; was group " ++ FloatLayout.digitsText earlier
  | .unknownName name => "unknown group name " ++ Text.quoted name
  | .nothingToRepeat => "nothing to repeat"
  | .multipleRepeat => "multiple repeat"
  | .leastAboveMost => "min repeat greater than max repeat"
  | .badRange first last => s!"bad character range {first}-{last}"
  | .unbalanced => "unbalanced parenthesis"
  | .badEnd => "bad escape (end of pattern)"
  | .badEscape written => s!"bad escape {written}"
  | .shortEscape written => s!"incomplete escape {written}"
  | .wideEscape written => s!"octal escape value {written} outside of range 0-0o377"
  | .missingBrace => "missing \x7b"
  | .noSuchCharacter name => "undefined character name " ++ Text.quoted name
  | .noSuchGroup number => "invalid group reference " ++ FloatLayout.digitsText number
  | .zeroGroup => "bad group number"
  | .openGroup => "cannot refer to an open group"
  | .groupInsideBehind => "cannot refer to group defined in the same lookbehind subpattern"
  | .manyBranches => "conditional backref with more than two branches"
  | .endedEarly => "unexpected end of pattern"
  | .unknownExtension written => s!"unknown extension ?{written}"
  | .unknownFlag => "unknown flag"
  | .missingFlag => "missing flag"
  | .missingColon => "missing :"
  | .flagsNotClosed => "missing -, : or )"
  | .flagsNotFirst => "global flags not at the start of the expression"
  | .localeFlag => "bad inline flags: cannot use 'L' flag with a str pattern"
  | .clashingFlags => "bad inline flags: flags 'a', 'u' and 'L' are incompatible"
  | .fixedFlag => "bad inline flags: cannot turn off flags 'a', 'u' and 'L'"
  | .globalFlagOn => "bad inline flags: cannot turn on global flag"
  | .globalFlagOff => "bad inline flags: cannot turn off global flag"
  | .flagOnAndOff => "bad inline flags: flag turned on and off"
  | .looseBehind => "look-behind requires fixed-width pattern"
  | .farBehind => "looks too much behind"
  | .repeatInTemplate .greedy => "internal: unsupported template operator MAX_REPEAT"
  | .repeatInTemplate .lazy => "internal: unsupported template operator MIN_REPEAT"
  | .repeatInTemplate .possessive =>
    "internal: unsupported template operator POSSESSIVE_REPEAT"
  | .wideCount => "the repetition number is too large"
  | .longCount digits =>
    Digit.tooMany (": value has " ++ FloatLayout.digitsText digits ++ " digits")
  | .asciiAndUnicode => "ASCII and UNICODE flags are incompatible"

end Cause

/-- Where a fault is; line and column are given for a text of several lines. -/
structure Place where
  position : Nat
  inLines : Option (Nat × Nat)
  deriving DecidableEq

def Place.written (place : Place) : String :=
  " at position " ++ FloatLayout.digitsText place.position ++
    match place.inLines with
    | none => ""
    | some (line, column) =>
      " (line " ++ FloatLayout.digitsText line ++ ", column " ++
        FloatLayout.digitsText column ++ ")"

/-- A fault in a written pattern; one of the whole pattern has no place. -/
structure Fault where
  cause : Cause
  place : Option Place
  deriving DecidableEq

def Fault.message (f : Fault) : String :=
  f.cause.message ++ (f.place.map Place.written).getD ""

inductive Token
  | char (c : Char)
  | escape (c : Char)
  | badEnd
  deriving DecidableEq

namespace Token

def ofChars : List Char → List Token
  | [] => []
  | ['\\'] => [.badEnd]
  | '\\' :: c :: rest => .escape c :: ofChars rest
  | c :: rest => .char c :: ofChars rest

def width : Token → Nat
  | .char _ => 1
  | .escape _ => 2
  | .badEnd => 1

def written : Token → String
  | .char c => String.ofList [c]
  | .escape c => String.ofList ['\\', c]
  | .badEnd => "\\"

end Token

/-- What was read of the groups so far, and the flags of the whole pattern. -/
structure Notes where
  /-- The widths of the groups in their order; one that is still open has none. -/
  widths : List (Option Width)
  names : List (List Char × Nat)
  /-- The number of the first group inside the look behind that is being read. -/
  firstBehind : Option Nat
  /-- Numbers that conditions ask for, with the places where they first do. -/
  conditions : List (Nat × Nat)
  flags : List Char

namespace Notes

def start : Notes := ⟨[], [], none, [], []⟩

/-- The width of a group that is closed. -/
def width? (notes : Notes) (number : Nat) : Option Width :=
  if number = 0 then none else (notes.widths[number - 1]?).join

def named? (notes : Notes) (name : List Char) : Option Nat :=
  (notes.names.find? (·.1 == name)).map (·.2)

/-- Note that a condition asks for a group. -/
def askFor (notes : Notes) (number position : Nat) : Notes :=
  if notes.conditions.any (·.1 == number) then notes
  else { notes with conditions := notes.conditions ++ [(number, position)] }

def close (notes : Notes) (number : Nat) (width : Width) : Notes :=
  { notes with widths := notes.widths.set (number - 1) (some width) }

end Notes

/-- The tokens that are left, the position of the first of them, and what was noted. -/
structure Input where
  tokens : List Token
  position : Nat
  notes : Notes

/-- A cause with its position, or a result. -/
abbrev Outcome (α : Type) := Except (Cause × Nat) α

namespace Input

def fail {α : Type} (cause : Cause) (position : Nat) : Outcome α := .error (cause, position)

/-- Refuse an input whose next token is a backslash at the end. -/
def sound (input : Input) : Outcome Input :=
  match input.tokens with
  | .badEnd :: _ => fail .badEnd input.position
  | _ => .ok input

def advance (input : Input) : Outcome Input :=
  match input.tokens with
  | [] => .ok input
  | token :: rest => sound ⟨rest, input.position + token.width, input.notes⟩

def nextIs (input : Input) (c : Char) : Bool := input.tokens.head? == some (.char c)

/-- Take the next token if it is this character. -/
def accept (input : Input) (c : Char) : Outcome (Bool × Input) :=
  if input.nextIs c then (fun rest => (true, rest)) <$> input.advance else .ok (false, input)

/-- Take at most so many characters of a class. -/
def takeSome (p : Char → Bool) : Nat → Input → Outcome (List Char × Input)
  | 0, input => .ok ([], input)
  | n + 1, input =>
    match input.tokens with
    | .char c :: _ =>
      if p c then do
        let rest ← input.advance
        let (more, rest) ← takeSome p n rest
        .ok (c :: more, rest)
      else .ok ([], input)
    | _ => .ok ([], input)

end Input

/-! ## Modes -/

/-- How the parts of a pattern are meant. -/
structure Mode where
  foldCase : Bool
  ascii : Bool
  lines : Bool
  breaks : Bool
  /-- Blanks and comments between the parts are passed over. -/
  spaced : Bool

namespace Mode

def start (foldCase : Bool) : Mode := ⟨foldCase, false, false, false, false⟩

def casing (mode : Mode) : Casing :=
  if !mode.foldCase then .exact else if mode.ascii then .ascii else .full

def turnOn (mode : Mode) (flags : List Char) : Mode where
  foldCase := mode.foldCase || flags.contains 'i'
  ascii := if flags.contains 'u' then false else mode.ascii || flags.contains 'a'
  lines := mode.lines || flags.contains 'm'
  breaks := mode.breaks || flags.contains 's'
  spaced := mode.spaced || flags.contains 'x'

def turnOff (mode : Mode) (flags : List Char) : Mode where
  foldCase := mode.foldCase && !flags.contains 'i'
  ascii := mode.ascii
  lines := mode.lines && !flags.contains 'm'
  breaks := mode.breaks && !flags.contains 's'
  spaced := mode.spaced && !flags.contains 'x'

end Mode

def isFlag (c : Char) : Bool := "aiLmstux".toList.contains c

/-- The flags of which only one can hold. -/
def isCharsetFlag (c : Char) : Bool := "aLu".toList.contains c

def isLetter (c : Char) : Bool :=
  Text.isWord c && c != '_' && (Text.digitValue? c).isNone

/-- The complaint about a character that is no flag. -/
def noFlag (token : Token) (otherwise : Cause) : Cause :=
  match token with
  | .char c => if isLetter c then .unknownFlag else otherwise
  | _ => otherwise

/-- The flags that are turned on, and the sign behind them; `c` is one more of them. -/
def flagsOn : Nat → List Char → Char → Input → Outcome (List Char × Char × Input)
  | 0, _, _, input => Input.fail .flagsNotClosed input.position
  | fuel + 1, before, c, input => do
    if c = 'L' then Input.fail .localeFlag input.position
    else if isCharsetFlag c && before.any (fun d => isCharsetFlag d && d != c) then
      Input.fail .clashingFlags input.position
    else
      match input.tokens with
      | [] => Input.fail .flagsNotClosed input.position
      | token :: _ =>
        let rest ← input.advance
        match token with
        | .char next =>
          if next = ')' || next = ':' || next = '-' then .ok (c :: before, next, rest)
          else if isFlag next then flagsOn fuel (c :: before) next rest
          else Input.fail (noFlag token .flagsNotClosed) input.position
        | _ => Input.fail .flagsNotClosed input.position

/-- The flags that are turned off, up to a colon.  The first one must be there. -/
def flagsOff : Nat → List Char → Input → Outcome (List Char × Input)
  | 0, _, input => Input.fail .missingColon input.position
  | fuel + 1, before, input => do
    let missing : Cause := if before.isEmpty then .missingFlag else .missingColon
    match input.tokens with
    | [] => Input.fail missing input.position
    | token :: _ =>
      let rest ← input.advance
      match token with
      | .char next =>
        if next = ':' && !before.isEmpty then .ok (before, rest)
        else if isCharsetFlag next then Input.fail .fixedFlag rest.position
        else if isFlag next then flagsOff fuel (next :: before) rest
        else Input.fail (noFlag token missing) input.position
      | _ => Input.fail missing input.position

/-! ## Names -/

/-- A name up to its closing sign; `what` it is the name of. -/
def name (what : String) (closing : Char) : Nat → List Char → Input → Outcome (List Char × Input)
  | 0, before, input =>
    Input.fail (.endlessName (String.ofList [closing])) (input.position - before.length)
  | fuel + 1, before, input => do
    match input.tokens with
    | [] =>
      if before.isEmpty then Input.fail (.missingName what) input.position
      else Input.fail (.endlessName (String.ofList [closing])) (input.position - before.length)
    | token :: _ =>
      let rest ← input.advance
      if token == .char closing then
        if before.isEmpty then Input.fail (.missingName what) (rest.position - 1)
        else .ok (before, rest)
      else name what closing fuel (before ++ token.written.toList) rest

/-! ## Escapes -/

/-- A control character by its letter. -/
def controlEscape? (c : Char) : Option Char :=
  if c = 'a' then some '\x07'
  else if c = 'f' then some '\x0c'
  else if c = 'n' then some '\n'
  else if c = 'r' then some '\r'
  else if c = 't' then some '\t'
  else if c = 'v' then some '\x0b'
  else if c = '\\' then some '\\'
  else none

/-- A class of characters by its letter. -/
def classEscape? (ascii : Bool) (c : Char) : Option Item :=
  if c = 'w' then some (.word ascii true)
  else if c = 'W' then some (.word ascii false)
  else if c = 'd' then some (.digit ascii true)
  else if c = 'D' then some (.digit ascii false)
  else if c = 's' then some (.blank ascii true)
  else if c = 'S' then some (.blank ascii false)
  else none

/-- A mark by its letter. -/
def markEscape? (ascii : Bool) (c : Char) : Option Mark :=
  if c = 'A' then some (.start false)
  else if c = 'Z' then some .last
  else if c = 'b' then some (.edge ascii true)
  else if c = 'B' then some (.edge ascii false)
  else none

/-- How many hexadecimal digits follow the letter of an escape. -/
def hexWidth? (c : Char) : Option Nat :=
  if c = 'x' then some 2 else if c = 'u' then some 4 else if c = 'U' then some 8 else none

/-- A code in hexadecimal digits, the escape having begun at a position. -/
def hexEscape (c : Char) (width position : Nat) (input : Input) : Outcome (Nat × Input) := do
  let (digits, rest) ← input.takeSome Digit.isHexadecimal width
  let written := String.ofList ('\\' :: c :: digits)
  let code := Digit.number 16 digits
  if digits.length < width then Input.fail (.shortEscape written) position
  else if 0x10ffff < code then Input.fail (.badEscape written) position
  else .ok (code, rest)

/-- A code in octal digits. -/
def octalEscape (c : Char) (position : Nat) (input : Input) : Outcome (Nat × Input) := do
  let (digits, rest) ← input.takeSome Digit.isOctal 2
  let code := Digit.number 8 (c :: digits)
  if 0o377 < code then Input.fail (.wideEscape (String.ofList ('\\' :: c :: digits))) position
  else .ok (code, rest)

/-- The escape of an ordinary character stands for it; a letter has to be known. -/
def plainEscape (c : Char) (position : Nat) (input : Input) : Outcome (Nat × Input) :=
  if c.isAlphanum then Input.fail (.badEscape (String.ofList ['\\', c])) position
  else .ok (c.toNat, input)

/-- The escape of a character by its name.  No names are known. -/
def nameEscape (position : Nat) (input : Input) : Outcome (Nat × Input) := do
  let (brace, rest) ← input.accept '{'
  if !brace then Input.fail .missingBrace rest.position
  else
    let (found, _) ← name "character name" '}' (rest.tokens.length + 1) [] rest
    Input.fail (.noSuchCharacter (String.ofList found)) position

/-- The escape of an ordinary character, or of one by its name. -/
def otherEscape (c : Char) (position : Nat) (input : Input) : Outcome (Nat × Input) :=
  if c = 'N' then nameEscape position input else plainEscape c position input

/-- A member of a set: a single code, or a class. -/
inductive Member
  | code (n : Nat)
  | other (item : Item)

def Item.ofCode (n : Nat) : Item :=
  if h : n.isValidChar then .char (Char.ofNatAux n h) else .noChar

def Member.toItem : Member → Item
  | .code n => .ofCode n
  | .other item => item

/-- A member of a set that begins with a token; `position` is where it begins. -/
def setMember (ascii : Bool) (token : Token) (position : Nat) (input : Input) :
    Outcome (Member × Input) :=
  let single (r : Nat × Input) : Member × Input := (.code r.1, r.2)
  match token with
  | .char c => .ok (.code c.toNat, input)
  | .badEnd => Input.fail .badEnd position
  | .escape c =>
    match classEscape? ascii c with
    | some item => .ok (.other item, input)
    | none =>
      if c = 'b' then .ok (.code 8, input)
      else
        match controlEscape? c, hexWidth? c with
        | some control, _ => .ok (.code control.toNat, input)
        | none, some width => single <$> hexEscape c width position input
        | none, none =>
          if Digit.isOctal c then single <$> octalEscape c position input
          else single <$> otherEscape c position input

/-- Refuse a group that a part of a look behind cannot refer to. -/
def checkBehind (number : Nat) (input : Input) : Outcome Unit :=
  match input.notes.firstBehind with
  | none => .ok ()
  | some first =>
    if (input.notes.width? number).isNone then Input.fail .openGroup input.position
    else if first ≤ number then Input.fail .groupInsideBehind input.position
    else .ok ()

/-- The pattern for what a group has matched; `position` is where it is named. -/
def reference (mode : Mode) (number position : Nat) (input : Input) : Outcome Pattern :=
  match input.notes.width? number with
  | none => Input.fail .openGroup position
  | some width => do
    checkBehind number input
    .ok (.back mode.casing number width)

/-- A number behind a backslash: three octal digits, or a group. -/
def numberEscape (mode : Mode) (c : Char) (position : Nat) (input : Input) :
    Outcome (Pattern × Input) := do
  let (digits, rest) ← input.takeSome Char.isDigit 1
  let (last, after) ←
    if !digits.isEmpty && (c :: digits).all Digit.isOctal then rest.takeSome Digit.isOctal 1
    else .ok ([], rest)
  if last.isEmpty then
    let number := Digit.number 10 (c :: digits)
    if rest.notes.widths.length < number then Input.fail (.noSuchGroup number) (position + 1)
    else
      let p ← reference mode number position rest
      .ok (p, rest)
  else
    let written := c :: digits ++ last
    let code := Digit.number 8 written
    if 0o377 < code then
      Input.fail (.wideEscape (String.ofList ('\\' :: written))) position
    else .ok (.one mode.casing false [.ofCode code], after)

/-- The pattern of an escape outside sets. -/
def escaped (mode : Mode) (c : Char) (position : Nat) (input : Input) :
    Outcome (Pattern × Input) :=
  let literal (r : Nat × Input) : Pattern × Input :=
    (.one mode.casing false [.ofCode r.1], r.2)
  match classEscape? mode.ascii c, markEscape? mode.ascii c with
  | some item, _ => .ok (.one mode.casing false [item], input)
  | none, some m => .ok (.mark m, input)
  | none, none =>
    match controlEscape? c, hexWidth? c with
    | some control, _ => .ok (literal (control.toNat, input))
    | none, some width => literal <$> hexEscape c width position input
    | none, none =>
      if c = '0' then literal <$> octalEscape c position input
      else if c.isDigit then numberEscape mode c position input
      else literal <$> otherEscape c position input

/-! ## Sets -/

/-- The characters of a range given by its two ends. -/
def rangeOf (first last : Token) (a b : Member) (position : Nat) : Outcome Item :=
  let bad := Input.fail (.badRange first.written last.written) position
  match a, b with
  | .code a, .code b => if b < a then bad else .ok (.range a b)
  | _, _ => bad

/-- The members of a set up to its closing bracket; `start` is where the set begins. -/
def setItems (ascii : Bool) (start : Nat) : Nat → Bool → Input → Outcome (List Item × Input)
  | 0, _, _ => Input.fail .endlessSet start
  | fuel + 1, isFirst, input => do
    match input.tokens with
    | [] => Input.fail .endlessSet start
    | token :: _ =>
      let position := input.position
      let rest ← input.advance
      if token == .char ']' && !isFirst then .ok ([], rest)
      else
        let (member, rest) ← setMember ascii token position rest
        let (dash, rest) ← rest.accept '-'
        if !dash then
          let (items, rest) ← setItems ascii start fuel false rest
          .ok (member.toItem :: items, rest)
        else
          match rest.tokens with
          | [] => Input.fail .endlessSet start
          | last :: _ =>
            let lastPosition := rest.position
            let rest ← rest.advance
            if last == .char ']' then .ok ([member.toItem, .char '-'], rest)
            else
              let (other, rest) ← setMember ascii last lastPosition rest
              let range ← rangeOf token last member other
                (rest.position - (token.width + 1 + last.width))
              let (items, rest) ← setItems ascii start fuel false rest
              .ok (range :: items, rest)

/-- A set behind its opening bracket. -/
def set (mode : Mode) (start : Nat) (input : Input) : Outcome (Pattern × Input) := do
  let (negated, rest) ← input.accept '^'
  let (items, rest) ← setItems mode.ascii start (rest.tokens.length + 1) true rest
  .ok (.one mode.casing negated items, rest)

/-! ## Repetitions -/

/-- The bounds of a repetition. -/
structure Bounds where
  least : Nat
  most : Option Nat

/-- A bound of a repetition by its digits. -/
def count (digits : List Char) (position : Nat) : Outcome Nat :=
  let number := Digit.number 10 digits
  if Digit.limit < digits.length then Input.fail (.longCount digits.length) position
  else if 4294967295 ≤ number then Input.fail .wideCount position
  else .ok number

/-- The bounds in braces; `none` if the brace stands for itself. -/
def braced (input : Input) : Outcome (Option (Bounds × Input)) := do
  if input.nextIs '}' then return none
  let size := input.tokens.length
  let (low, rest) ← input.takeSome Char.isDigit size
  let (comma, rest) ← rest.accept ','
  let (high, rest) ← if comma then rest.takeSome Char.isDigit size else pure (low, rest)
  let (closed, rest) ← rest.accept '}'
  if !closed then return none
  let least ← if low.isEmpty then pure 0 else count low input.position
  if high.isEmpty then return some (⟨least, none⟩, rest)
  let most ← count high input.position
  if most < least then Input.fail .leastAboveMost input.position
  else return some (⟨least, some most⟩, rest)

def signBounds? (c : Char) : Option Bounds :=
  if c = '*' then some ⟨0, none⟩
  else if c = '+' then some ⟨1, none⟩
  else if c = '?' then some ⟨0, some 1⟩
  else none

/-- What stands last in a sequence, for a repetition that follows. -/
inductive Last
  | nothing
  | mark
  | repeated
  | part

/-- The parts of a sequence in reverse, with the kind of the last one. -/
structure Parts where
  reversed : List Pattern
  last : Last

namespace Parts

def none : Parts := ⟨[], .nothing⟩

def push (parts : Parts) (p : Pattern) : Parts :=
  ⟨p :: parts.reversed, match p with | .mark _ => .mark | _ => .part⟩

def toPattern (parts : Parts) : Pattern :=
  match parts.reversed with
  | [] => .empty
  | p :: rest => rest.foldl (fun q p => .seq p q) p

/-- The sign behind a repetition that says what it tries first. -/
def readChoice (input : Input) : Outcome (Choice × Input) := do
  let (lazy, rest) ← input.accept '?'
  if lazy then return (.lazy, rest)
  let (possessive, rest) ← rest.accept '+'
  return (if possessive then .possessive else .greedy, rest)

/-- Repeat the last part; `position` is where the repetition begins. -/
def repeatLast (parts : Parts) (bounds : Bounds) (position : Nat) (input : Input) :
    Outcome (Parts × Input) :=
  match parts.last, parts.reversed with
  | .part, p :: rest => do
    let (choice, input) ← readChoice input
    .ok (⟨.rep choice p bounds.least bounds.most :: rest, .repeated⟩, input)
  | .repeated, _ => Input.fail .multipleRepeat position
  | _, _ => Input.fail .nothingToRepeat position

end Parts

/-! ## Groups -/

/-- May this be the name of a group? -/
def isGroupName (name : List Char) : Bool :=
  match name with
  | [] => false
  | c :: _ => name.all Text.isWord && (Text.digitValue? c).isNone

/-- The name of a group up to its closing sign, and where it begins. -/
def checkedName (closing : Char) (input : Input) : Outcome (List Char × Nat × Input) := do
  let (found, rest) ← name "group name" closing (input.tokens.length + 1) [] input
  let position := rest.position - found.length - 1
  if isGroupName found then .ok (found, position, rest)
  else Input.fail (.badName (String.ofList found)) position

/-- The values of digits that may have single underscores between them. -/
def digitValues? : List Char → Option (List Nat)
  | [] => none
  | [c] => (Text.digitValue? c).map ([·])
  | c :: '_' :: rest => do return (← Text.digitValue? c) :: (← digitValues? rest)
  | c :: rest => do return (← Text.digitValue? c) :: (← digitValues? rest)

/-- The number of a group as a condition gives it. -/
def groupNumber? (name : List Char) : Option Nat := do
  let trimmed := Text.trimWhile Text.isBlank name
  let (negative, digits) := match trimmed with
    | '-' :: rest => (true, rest)
    | '+' :: rest => (false, rest)
    | cs => (false, cs)
  let values ← digitValues? digits
  if Digit.limit < values.length then none
  else
    let number := Digit.ofValues 10 values
    if negative && number != 0 then none else some number

/-- The group that a condition asks for. -/
def condition (input : Input) : Outcome (Nat × Input) := do
  let (found, rest) ← name "group name" ')' (input.tokens.length + 1) [] input
  let position := rest.position - found.length - 1
  let (number, rest) ←
    if isGroupName found then
      match rest.notes.named? found with
      | none => Input.fail (.unknownName (String.ofList found)) position
      | some number => .ok (number, rest)
    else
      match groupNumber? found with
      | none => Input.fail (.badName (String.ofList found)) position
      | some number =>
        if number = 0 then Input.fail .zeroGroup position
        else if 1073741823 ≤ number then Input.fail (.noSuchGroup number) position
        else .ok (number, { rest with notes := rest.notes.askFor number position })
  checkBehind number rest
  .ok (number, rest)

/-- What follows `(?`. -/
inductive Opening
  | group (name : Option (List Char × Nat))
  | inMode (mode : Mode)
  | atomic
  | comment
  | flags (letters : List Char)
  | look (ahead inside : Bool)
  | part (p : Pattern)
  | given (number : Nat)

/-- Pass a comment up to its closing parenthesis. -/
def skipComment (start : Nat) : Nat → Input → Outcome Input
  | 0, _ => Input.fail .endlessComment start
  | fuel + 1, input => do
    match input.tokens with
    | [] => Input.fail .endlessComment start
    | token :: _ =>
      let rest ← input.advance
      if token == .char ')' then .ok rest else skipComment start fuel rest

/-- Flags behind `(?`, the first of which was read: those of the whole pattern, or of a group. -/
def flagsOpening (mode : Mode) (c : Char) (input : Input) : Outcome (Opening × Input) := do
  let fuel := input.tokens.length + 1
  let (on, sign, rest) ←
    if c = '-' then .ok ([], c, input) else flagsOn fuel [] c input
  if sign = ')' then .ok (.flags on, rest)
  else if on.contains 't' then Input.fail .globalFlagOn (rest.position - 1)
  else if sign = ':' then .ok (.inMode (mode.turnOn on), rest)
  else
    let (off, rest) ← flagsOff fuel [] rest
    if off.contains 't' then Input.fail .globalFlagOff (rest.position - 1)
    else if on.any off.contains then Input.fail .flagOnAndOff (rest.position - 1)
    else .ok (.inMode ((mode.turnOn on).turnOff off), rest)

/-- Read the opening of a group behind its question mark. -/
def opening (mode : Mode) (start : Nat) (input : Input) : Outcome (Opening × Input) := do
  match input.tokens with
  | [] => Input.fail .endedEarly input.position
  | token :: _ =>
    let position := input.position
    let rest ← input.advance
    let unknown {α : Type} : Outcome α :=
      Input.fail (.unknownExtension token.written) (position - 1)
    match token with
    | .char ':' => .ok (.inMode mode, rest)
    | .char '>' => .ok (.atomic, rest)
    | .char '=' => .ok (.look true true, rest)
    | .char '!' => .ok (.look true false, rest)
    | .char '(' => (fun r => (.given r.1, r.2)) <$> condition rest
    | .char '<' =>
      match rest.tokens with
      | [] => Input.fail .endedEarly rest.position
      | other :: _ =>
        let after ← rest.advance
        if other == .char '=' then .ok (.look false true, after)
        else if other == .char '!' then .ok (.look false false, after)
        else Input.fail (.unknownExtension ("<" ++ other.written)) (position - 1)
    | .char '#' =>
      (fun rest => (.comment, rest)) <$> skipComment start (input.tokens.length + 1) rest
    | .char 'P' =>
      let (named, rest) ← rest.accept '<'
      if named then
        let (name, place, rest) ← checkedName '>' rest
        .ok (.group (some (name, place)), rest)
      else
        let (again, rest) ← rest.accept '='
        if again then
          let (name, place, rest) ← checkedName ')' rest
          match rest.notes.named? name with
          | none => Input.fail (.unknownName (String.ofList name)) place
          | some number =>
            let p ← reference mode number place rest
            .ok (.part p, rest)
        else
          match rest.tokens with
          | [] => Input.fail .endedEarly rest.position
          | other :: _ =>
            let _ ← rest.advance
            Input.fail (.unknownExtension ("P" ++ other.written)) (rest.position - 2)
    | .char c => if isFlag c || c = '-' then flagsOpening mode c rest else unknown
    | _ => unknown

/-- Open the next group, under its name if it has one. -/
def openGroup (name : Option (List Char × Nat)) (input : Input) : Outcome (Nat × Input) :=
  let number := input.notes.widths.length + 1
  let notes := { input.notes with widths := input.notes.widths ++ [none] }
  match name with
  | none => .ok (number, { input with notes := notes })
  | some (name, position) =>
    match notes.named? name with
    | some earlier =>
      Input.fail (.repeatedName (String.ofList name) number earlier) position
    | none => .ok (number, { input with notes := { notes with
        names := notes.names ++ [(name, number)] } })

/-! ## Patterns -/

/-- Characters that mean something outside sets. -/
def isSpecial (c : Char) : Bool := ".\\[\x7b()*+?^$|".toList.contains c

/-- Characters between the parts of a spaced pattern. -/
def isSpacing (c : Char) : Bool := " \t\n\r\x0b\x0c".toList.contains c

/-- Pass a comment up to the end of its line. -/
def skipLine : Nat → Input → Outcome Input
  | 0, input => .ok input
  | fuel + 1, input => do
    match input.tokens with
    | [] => .ok input
    | token :: _ =>
      let rest ← input.advance
      if token == .char '\n' then .ok rest else skipLine fuel rest

/-- Pass the closing parenthesis of a group that was opened at a position. -/
def closed (position : Nat) (input : Input) : Outcome Input :=
  if input.nextIs ')' then input.advance else Input.fail .endlessGroup position

mutual

/-- Choices separated by bars.  The mode may be changed by flags of the whole pattern. -/
def choices : Nat → Bool → Mode → Input → Outcome (Pattern × Input)
  | 0, _, _, input => Input.fail .unbalanced input.position
  | fuel + 1, isFirst, mode, input => do
    let (p, mode, rest) ← sequence fuel isFirst mode .none input
    let (more, rest) ← rest.accept '|'
    if more then
      let (q, rest) ← choices fuel false mode rest
      .ok (.alt p q, rest)
    else .ok (p, rest)

/-- A sequence up to a bar, a closing parenthesis or the end, behind some parts. -/
def sequence : Nat → Bool → Mode → Parts → Input → Outcome (Pattern × Mode × Input)
  | 0, _, _, _, input => Input.fail .unbalanced input.position
  | fuel + 1, isFirst, mode, parts, input => do
    match input.tokens with
    | [] | .char '|' :: _ | .char ')' :: _ => .ok (parts.toPattern, mode, input)
    | token :: _ =>
      let position := input.position
      let rest ← input.advance
      match token with
      | .badEnd => Input.fail .badEnd position
      | .escape c =>
        let (p, rest) ← escaped mode c position rest
        sequence fuel isFirst mode (parts.push p) rest
      | .char c =>
        if mode.spaced && isSpacing c then sequence fuel isFirst mode parts rest
        else if mode.spaced && c = '#' then
          let rest ← skipLine (rest.tokens.length + 1) rest
          sequence fuel isFirst mode parts rest
        else
          match c with
          | '.' => sequence fuel isFirst mode (parts.push (.any mode.breaks)) rest
          | '^' => sequence fuel isFirst mode (parts.push (.mark (.start mode.lines))) rest
          | '$' => sequence fuel isFirst mode (parts.push (.mark (.finish mode.lines))) rest
          | '[' =>
            let (p, rest) ← set mode position rest
            sequence fuel isFirst mode (parts.push p) rest
          | '{' =>
            match ← braced rest with
            | some (bounds, rest) =>
              let (parts, rest) ← parts.repeatLast bounds position rest
              sequence fuel isFirst mode parts rest
            | none =>
              sequence fuel isFirst mode (parts.push (.one mode.casing false [.char '{'])) rest
          | '(' =>
            let (extended, inner) ← rest.accept '?'
            let (start, inner) ←
              if extended then opening mode position inner else pure (.group none, inner)
            match start with
            | .comment => sequence fuel isFirst mode parts inner
            | .flags letters =>
              if isFirst && parts.reversed.isEmpty then
                let notes := { inner.notes with flags := letters ++ inner.notes.flags }
                sequence fuel isFirst (mode.turnOn letters) parts { inner with notes := notes }
              else Input.fail .flagsNotFirst position
            | .part p => sequence fuel isFirst mode (parts.push p) inner
            | .given number =>
              let (p, _, inner) ← sequence fuel false mode .none inner
              let (more, inner) ← inner.accept '|'
              let (q, inner) ←
                if more then
                  let (q, _, inner) ← sequence fuel false mode .none inner
                  if inner.nextIs '|' then Input.fail .manyBranches inner.position
                  else pure (q, inner)
                else pure (.empty, inner)
              let rest ← closed position inner
              sequence fuel isFirst mode (parts.push (.given number p q)) rest
            | .look ahead inside =>
              let outer := inner.notes.firstBehind
              let first := if ahead then outer else outer.or (some (inner.notes.widths.length + 1))
              let (p, inner) ← choices fuel false mode
                { inner with notes := { inner.notes with firstBehind := first } }
              let inner := { inner with notes := { inner.notes with firstBehind := outer } }
              let rest ← closed position inner
              sequence fuel isFirst mode (parts.push (.look ahead inside p)) rest
            | .group name =>
              let (number, inner) ← openGroup name inner
              let (p, inner) ← choices fuel false mode inner
              let rest ← closed position inner
              sequence fuel isFirst mode (parts.push (.group number p))
                { rest with notes := rest.notes.close number p.width }
            | .atomic =>
              let (p, inner) ← choices fuel false mode inner
              let rest ← closed position inner
              sequence fuel isFirst mode (parts.push (.atomic p)) rest
            | .inMode inside =>
              let (p, inner) ← choices fuel false inside inner
              let rest ← closed position inner
              -- What the group is made of may be a mark or a repetition; the group is neither.
              let parts := { parts.push p with last := .part }
              sequence fuel isFirst mode parts rest
          | c =>
            match signBounds? c with
            | some bounds =>
              let (parts, rest) ← parts.repeatLast bounds position rest
              sequence fuel isFirst mode parts rest
            | none =>
              sequence fuel isFirst mode (parts.push (.one mode.casing false [.char c])) rest

end

/-- The place of a position; line and column are counted from one. -/
def placeOf (cs : List Char) (position : Nat) : Place :=
  let before := cs.take position
  let inLines :=
    if cs.contains '\n' then
      some (before.count '\n' + 1, (before.reverse.takeWhile (· != '\n')).length + 1)
    else none
  ⟨position, inLines⟩

/-- What is wrong with a pattern although all of its parts can be read. -/
def flaw? (template : Bool) : Pattern → Option Cause
  | .seq p q | .alt p q | .given _ p q => (p.flaw? template).or (q.flaw? template)
  | .rep choice p _ _ => if template then some (.repeatInTemplate choice) else p.flaw? template
  | .group _ p | .atomic p => p.flaw? template
  | .look ahead _ p =>
    if !ahead && 4294967295 < p.width.least then some .farBehind
    else if !ahead && p.width.least != p.width.most then some .looseBehind
    else p.flaw? template
  | _ => none

/-- A pattern without the groups that no part of it asks for. -/
def withoutIdle (asked : List Nat) : Pattern → Pattern
  | .seq p q => .seq (p.withoutIdle asked) (q.withoutIdle asked)
  | .alt p q => .alt (p.withoutIdle asked) (q.withoutIdle asked)
  | .given number p q => .given number (p.withoutIdle asked) (q.withoutIdle asked)
  | .rep choice p least most => .rep choice (p.withoutIdle asked) least most
  | .group number p =>
    if asked.contains number then .group number (p.withoutIdle asked) else p.withoutIdle asked
  | .atomic p => .atomic (p.withoutIdle asked)
  | .look ahead inside p => .look ahead inside (p.withoutIdle asked)
  | p => p

/-- Read a whole text, and then look at what its parts ask of one another. -/
def readWhole (foldCase : Bool) (cs : List Char) : Outcome (Pattern × List Char) := do
  let input ← Input.sound ⟨Token.ofChars cs, 0, .start⟩
  let (p, rest) ← choices (2 * cs.length + 4) true (.start foldCase) input
  let flags := rest.notes.flags
  if flags.contains 'a' && flags.contains 'u' then Input.fail .asciiAndUnicode 0
  else if !rest.tokens.isEmpty then Input.fail .unbalanced rest.position
  else
    match rest.notes.conditions.find? (rest.notes.widths.length < ·.1) with
    | some (number, position) => Input.fail (.noSuchGroup number) position
    | none => .ok (p, flags)

/-- The pattern that a text is the written form of. -/
def read (foldCase : Bool) (s : String) : Except Fault Pattern :=
  match readWhole foldCase s.toList with
  | .error (cause, position) =>
    .error ⟨cause, if cause.kind = .form then some (placeOf s.toList position) else none⟩
  | .ok (p, flags) =>
    match p.flaw? (flags.contains 't') with
    | some cause => .error ⟨cause, none⟩
    | none => .ok (p.withoutIdle p.asked)

end CqlWorkload.Pattern
