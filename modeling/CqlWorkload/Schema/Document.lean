import CqlWorkload.Failure
import CqlWorkload.Json.Reader
import CqlWorkload.Json.Writer
import CqlWorkload.Schema.Reader
import CqlWorkload.Schema.Writer

/-!
# Schema documents

A schema is kept in a JSON text.  Blanks around the text do not count, an empty
text holds no schema, and every other fault of the text or of the schema is
reported with the path of the file.
-/

namespace CqlWorkload.Schema

def ofValue (value : Value) : Except Failure Schema :=
  match read value with
  | .valid schema => .ok schema
  | .faulty issues => .error (.invalidRecord "SchemaModel" issues)

def ofFileText (path text : String) : Except Failure Schema :=
  let inner := Text.trim text
  if inner = "" then .error (.emptySchemaFile path)
  else
    match Json.read? Json.fileDepth inner with
    | none => .error (.invalidSchemaFile path [⟨[], .malformed⟩])
    | some value =>
      match read value with
      | .valid schema => .ok schema
      | .faulty issues => .error (.invalidSchemaFile path issues)

def fileText (s : Schema) : String := Json.write Json.schemaStyle s.toValue

end CqlWorkload.Schema
