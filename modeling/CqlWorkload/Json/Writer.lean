import CqlWorkload.Value.Text

/-!
# Writing JSON

Values are written over several lines, two spaces deeper for every level.  A
`Json.Style` says how characters and doubles are written: a workload is kept to
printable ASCII, a saved schema shows characters as they are.
-/

namespace CqlWorkload.Json

/-- The decisions that a JSON text makes. -/
structure Style where
  /-- Is everything outside printable ASCII escaped? -/
  asciiOnly : Bool
  floats : FloatLayout

/-- Style of a workload. -/
def workloadStyle : Style := ⟨true, .json⟩

/-- Style of a saved schema. -/
def schemaStyle : Style := ⟨false, .saved⟩

/-- Escape of one sixteen-bit unit. -/
def unitText (unit : Nat) : List Char :=
  '\\' :: 'u' :: Text.hexText 4 unit

/-- Escape of a character by its one or two units. -/
def escapedChar (c : Char) : List Char :=
  if c.toNat < 0x10000 then unitText c.toNat
  else
    let offset := c.toNat - 0x10000
    unitText (0xd800 + offset / 0x400) ++ unitText (0xdc00 + offset % 0x400)

/-- A character of a text in quotes. -/
def charText (asciiOnly : Bool) (c : Char) : List Char :=
  if c = '"' || c = '\\' then ['\\', c]
  else if c = '\n' then ['\\', 'n']
  else if c = '\r' then ['\\', 'r']
  else if c = '\t' then ['\\', 't']
  else if c = '\x08' then ['\\', 'b']
  else if c = '\x0c' then ['\\', 'f']
  else if c.toNat < 0x20 || (asciiOnly && 0x7f ≤ c.toNat) then escapedChar c
  else [c]

def stringText (asciiOnly : Bool) (s : String) : List Char :=
  '"' :: s.toList.flatMap (charText asciiOnly) ++ ['"']

/-- Start of a new line at a level. -/
def lineStart (level : Nat) : List Char :=
  '\n' :: List.replicate (2 * level) ' '

/-- A list or mapping around its parts, which are written one a line. -/
def enclosed (opening closing : Char) (level : Nat) : List (List Char) → List Char
  | [] => [opening, closing]
  | parts =>
    opening :: lineStart (level + 1) ++ List.intercalate (',' :: lineStart (level + 1)) parts ++
      lineStart level ++ [closing]

mutual

/-- Text of a value whose first line starts at a level. -/
def valueText (style : Style) (level : Nat) : Value → List Char
  | .null => "null".toList
  | .bool b => (if b then "true" else "false").toList
  | .int n => (intText n).toList
  | .float x => (style.floats.render x).toList
  | .text s => stringText style.asciiOnly s
  | .moment m => stringText style.asciiOnly m.text
  | .list items => enclosed '[' ']' level (itemTexts style (level + 1) items)
  | .map entries => enclosed '{' '}' level (entryTexts style (level + 1) entries)

def itemTexts (style : Style) (level : Nat) : List Value → List (List Char)
  | [] => []
  | item :: rest => valueText style level item :: itemTexts style level rest

def entryTexts (style : Style) (level : Nat) : List (Value × Value) → List (List Char)
  | [] => []
  | (key, value) :: rest =>
    (stringText style.asciiOnly key.plainText ++ ':' :: ' ' :: valueText style level value) ::
      entryTexts style level rest

end

def write (style : Style) (value : Value) : String :=
  String.ofList (valueText style 0 value)

end CqlWorkload.Json
