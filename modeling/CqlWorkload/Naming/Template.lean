import CqlWorkload.Text.Quoted

/-!
# Naming templates

A naming template is literal text with sections in brackets.  A section holds
the name of a field in capital letters, and text before and after it that is
shown only together with a value of the field.

**Parts.** Reading a template gives its pieces in order: no literal is empty, no
two literals follow each other, and writing the pieces gives the template back.
-/

namespace CqlWorkload

/-- What a section of a naming template may show. -/
inductive Field
  | blockname
  | optype
  | kind
  | keyspace
  | table
  | name
  | typedef
  | modulo
  deriving DecidableEq

namespace Field

def text : Field → String
  | .blockname => "BLOCKNAME"
  | .optype => "OPTYPE"
  | .kind => "KIND"
  | .keyspace => "KEYSPACE"
  | .table => "TABLE"
  | .name => "NAME"
  | .typedef => "TYPEDEF"
  | .modulo => "MODULO"

def all : List Field :=
  [.blockname, .optype, .kind, .keyspace, .table, .name, .typedef, .modulo]

def ofText? (s : String) : Option Field := all.find? (·.text == s)

end Field

/-- A part of a template as it is written; the field of a section may be unknown. -/
inductive Template.Part
  | literal (text : List Char)
  | bracket (before name after : List Char)
  deriving DecidableEq

/-- A part of a template. -/
inductive Template.Piece
  | literal (text : String)
  | bracket (before : String) (field : Field) (after : String)
  deriving DecidableEq

/-- A naming template and its pieces. -/
structure Template where
  text : String
  pieces : List Template.Piece

namespace Template

inductive Fault
  | unknownField (name : String)
  | unbalanced
  | noFields
  deriving DecidableEq

def Fault.message (template : String) : Fault → String
  | .unknownField name =>
    s!"naming template '{template}' uses unknown field '{name}'. Known fields: " ++
      Text.quotedList (Field.all.map (·.text))
  | .unbalanced => s!"naming template '{template}' has unbalanced brackets"
  | .noFields => s!"naming template '{template}' has no fields"

def isCapital (c : Char) : Bool := 'A' ≤ c && c ≤ 'Z'

/-- May this character surround the field of a section? -/
def isMargin (c : Char) : Bool := c != '[' && c != ']' && !isCapital c

/-- A section behind its opening bracket, and what follows it. -/
def section? (cs : List Char) : Option (List Char × List Char × List Char × List Char) :=
  let before := cs.takeWhile isMargin
  let rest := cs.dropWhile isMargin
  let name := rest.takeWhile isCapital
  let rest := rest.dropWhile isCapital
  let after := rest.takeWhile isMargin
  match name, rest.dropWhile isMargin with
  | _ :: _, ']' :: rest => some (before, name, after, rest)
  | _, _ => none

/-- Put a literal character in front of parts. -/
def pushChar (c : Char) : List Part → List Part
  | .literal text :: parts => .literal (c :: text) :: parts
  | parts => .literal [c] :: parts

/-- The parts of a text; `fuel` is at least its length. -/
def partsOf : Nat → List Char → List Part
  | _, [] => []
  | 0, cs => [.literal cs]
  | fuel + 1, c :: rest =>
    match if c = '[' then section? rest else none with
    | some (before, name, after, rest) => .bracket before name after :: partsOf fuel rest
    | none => pushChar c (partsOf fuel rest)

/-- The piece that a part stands for. -/
def piece : Part → Except Fault Piece
  | .literal text => .ok (.literal (String.ofList text))
  | .bracket before name after =>
    match Field.ofText? (String.ofList name) with
    | some field => .ok (.bracket (String.ofList before) field (String.ofList after))
    | none => .error (.unknownField (String.ofList name))

/-- The pieces of parts, or the first fault. -/
def piecesOf : List Part → Except Fault (List Piece)
  | [] => .ok []
  | part :: rest =>
    match piece part with
    | .error fault => .error fault
    | .ok p =>
      match piecesOf rest with
      | .error fault => .error fault
      | .ok pieces => .ok (p :: pieces)

/-- Does a literal hold a bracket? -/
def Piece.hasBracket : Piece → Bool
  | .literal text => text.toList.any fun c => c = '[' || c = ']'
  | .bracket _ _ _ => false

def Piece.isField : Piece → Bool
  | .literal _ => false
  | .bracket _ _ _ => true

def read (s : String) : Except Fault Template :=
  match piecesOf (partsOf s.toList.length s.toList) with
  | .error fault => .error fault
  | .ok pieces =>
    if pieces.any (·.hasBracket) then .error .unbalanced
    else if pieces.any (·.isField) then .ok ⟨s, pieces⟩
    else .error .noFields

/-- A piece as it is written in a template. -/
def Piece.written : Piece → String
  | .literal text => text
  | .bracket before field after => "[" ++ before ++ field.text ++ after ++ "]"

/-- A character of a value as it may stand in a name. -/
def safeChar (c : Char) : Char :=
  if (c.isAlphanum || c = '_' || c = '-') then c else '_'

/-- The name that pieces give for the values of their fields.  A section without
a value, or with an empty one, disappears. -/
def render (value : Field → Option String) : List Piece → String
  | [] => ""
  | .literal text :: rest => text ++ render value rest
  | .bracket before field after :: rest =>
    (match value field with
      | none => ""
      | some v =>
        if v = "" then "" else before ++ String.ofList (v.toList.map safeChar) ++ after) ++
      render value rest

def standard : String := "[BLOCKNAME--][OPTYPE--][KEYSPACE__][TABLE__][NAME][__MODULO]"

end Template
end CqlWorkload
