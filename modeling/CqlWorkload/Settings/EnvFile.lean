import CqlWorkload.Entries
import CqlWorkload.Text.Blank

/-!
# Variable files

A variable file holds an assignment a line.  A name may stand in single quotes and
behind the word `export`; a value may stand in single or double quotes, which may go
over several lines, or plainly up to a blank and a number sign.  A name without a value
assigns nothing, and a line that cannot be read is passed over.

**References.** A value may refer to other variables, with a text for the case that
there is none.  Variables of the environment count before those of the file.
-/

namespace CqlWorkload.EnvFile

/-- Is the character a blank inside of a line? -/
def isInlineBlank (c : Char) : Bool := Text.isBlank c && c != '\n' && c != '\r'

def isLineEnd (c : Char) : Bool := c == '\n' || c == '\r'

/-- The text behind a quote up to the closing quote.  A quote behind a backslash closes
only if no other one does, and then the last one. -/
def closing? (quote : Char) : List Char → Option (List Char × List Char)
  | [] => none
  | '\\' :: c :: rest =>
    if c = quote then
      match closing? quote rest with
      | some (inner, rest) => some ('\\' :: c :: inner, rest)
      | none => some (['\\'], rest)
    else
      match closing? quote (c :: rest) with
      | some (inner, rest) => some ('\\' :: inner, rest)
      | none => none
  | c :: rest =>
    if c = quote then some ([], rest)
    else (closing? quote rest).map fun found => (c :: found.1, found.2)

/-- The characters that letters behind a backslash stand for inside of quotes. -/
def escapes (quote : Char) : List (Char × Char) :=
  if quote = '"' then
    [('\\', '\\'), ('\'', '\''), ('"', '"'), ('a', '\x07'), ('b', '\x08'), ('f', '\x0c'),
      ('n', '\n'), ('r', '\r'), ('t', '\t'), ('v', '\x0b')]
  else [('\\', '\\'), ('\'', '\'')]

/-- A quoted text with its escapes replaced. -/
def unescape (quote : Char) : List Char → List Char
  | '\\' :: c :: rest =>
    match (escapes quote).lookup c with
    | some value => value :: unescape quote rest
    | none => '\\' :: unescape quote (c :: rest)
  | c :: rest => c :: unescape quote rest
  | [] => []

/-- A plain value: what stands before a blank and a number sign. -/
def beforeComment : List Char → List Char
  | [] => []
  | c :: rest =>
    if Text.isBlank c && (rest.dropWhile Text.isBlank).head? == some '#' then []
    else c :: beforeComment rest

/-- What is left of a line that cannot be read any further. -/
def restOfLine (cs : List Char) : List Char := (cs.dropWhile (!isLineEnd ·)).drop 1

/-! ## Lines

A piece of a line is read together with what follows it; a fault is the place where
reading had to stop. -/

/-- What follows the word `export` in front of a name. -/
def afterExport (cs : List Char) : List Char :=
  match Text.after? "export".toList cs with
  | some (c :: rest) => if isInlineBlank c then rest.dropWhile isInlineBlank else cs
  | _ => cs

/-- The name of an assignment; a comment has none. -/
def name (cs : List Char) : Except (List Char) (Option String × List Char) :=
  match cs with
  | '#' :: _ => .ok (none, cs)
  | '\'' :: rest =>
    match rest.takeWhile (· != '\''), rest.dropWhile (· != '\'') with
    | _ :: _, _ :: after => .ok (some (String.ofList (rest.takeWhile (· != '\''))), after)
    | _, _ => .error cs
  | cs =>
    let isName (c : Char) : Bool := !(c == '=' || c == '#' || Text.isBlank c)
    match cs.takeWhile isName with
    | [] => .error cs
    | found => .ok (some (String.ofList found), cs.dropWhile isName)

def value (cs : List Char) : Except (List Char) (String × List Char) :=
  match cs with
  | [] => .ok ("", [])
  | c :: rest =>
    if c = '\'' || c = '"' then
      match closing? c rest with
      | some (inner, after) => .ok (String.ofList (unescape c inner), after)
      | none => .error cs
    else if isLineEnd c then .ok ("", cs)
    else
      let line := cs.takeWhile (!isLineEnd ·)
      .ok (String.ofList (Text.dropEndWhile Text.isBlank (beforeComment line)),
        cs.dropWhile (!isLineEnd ·))

/-- The value behind an equals sign, if there is one. -/
def valuePart (cs : List Char) : Except (List Char) (Option String × List Char) :=
  match cs with
  | '=' :: rest => (value (rest.dropWhile isInlineBlank)).map fun found => (some found.1, found.2)
  | cs => .ok (none, cs)

/-- The end of a line, with a comment or without. -/
def lineEnd (cs : List Char) : Except (List Char) (Unit × List Char) :=
  let after := cs.dropWhile isInlineBlank
  let cs := if after.head? = some '#' then after.dropWhile (!isLineEnd ·) else cs
  match cs.dropWhile isInlineBlank with
  | [] => .ok ((), [])
  | c :: rest => if isLineEnd c then .ok ((), rest) else .error cs

def assignment (cs : List Char) : Except (List Char) (Option (String × Option String) × List Char) := do
  let (name, cs) ← name (afterExport cs)
  let (value, cs) ← valuePart (cs.dropWhile isInlineBlank)
  let (_, cs) ← lineEnd cs
  return (name.map fun name => (name, value), cs)

/-- The assignments of a text. -/
def assignmentsFrom : Nat → List Char → List (String × Option String)
  | 0, _ => []
  | fuel + 1, cs =>
    match cs.dropWhile Text.isBlank with
    | [] => []
    | cs =>
      match assignment cs with
      | .ok (found, rest) => found.toList ++ assignmentsFrom fuel rest
      | .error rest => assignmentsFrom fuel (restOfLine rest)

def assignments (s : String) : List (String × Option String) :=
  assignmentsFrom (s.length + 1) s.toList

/-- A reference at the front of a text: its name, what stands in for the variable, and
what follows. -/
def reference? (cs : List Char) : Option (String × String × List Char) :=
  match Text.after? ['$', '\x7b'] cs with
  | none => none
  | some cs =>
    let isName (c : Char) : Bool := c != '\x7d' && c != ':'
    let name := String.ofList (cs.takeWhile isName)
    match cs.dropWhile isName with
    | '\x7d' :: rest => some (name, "", rest)
    | ':' :: '-' :: rest =>
      match rest.dropWhile (· != '\x7d') with
      | _ :: after => some (name, String.ofList (rest.takeWhile (· != '\x7d')), after)
      | [] => none
    | _ => none

/-- A value with its references replaced. -/
def expandFrom (lookup : String → Option String) : Nat → List Char → List Char
  | 0, _ => []
  | _ + 1, [] => []
  | fuel + 1, c :: rest =>
    match reference? (c :: rest) with
    | some (name, standIn, rest) =>
      ((lookup name).getD standIn).toList ++ expandFrom lookup fuel rest
    | none => c :: expandFrom lookup fuel rest

def expand (lookup : String → Option String) (value : String) : String :=
  String.ofList (expandFrom lookup (value.length + 1) value.toList)

/-- What a name refers to: a variable of the environment, or one of the file.  A name of
the file without a value stands for nothing. -/
def referent (env : Entries String) (found : Entries (Option String)) (name : String) :
    Option String :=
  match env.get? name with
  | some value => some value
  | none => (found.get? name).map (·.getD "")

/-- The values of the assignments, one after the other. -/
def resolveFrom (env : Entries String) (found : Entries (Option String)) :
    List (String × Option String) → Entries (Option String)
  | [] => found
  | (name, value) :: rest =>
    resolveFrom env (found.put name (value.map (expand (referent env found)))) rest

/-- The variables of a file, each with its last value. -/
def assigned (env : Entries String) (s : String) : Entries (Option String) :=
  resolveFrom env [] (assignments s)

end CqlWorkload.EnvFile
