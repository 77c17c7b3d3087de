import CqlWorkload.Config.Basic
import CqlWorkload.Failure
import CqlWorkload.Number.Reader

/-!
# Reading a configuration

A configuration is read from a mapping.  Only the block plan has to be there;
timeouts are laid over the standard ones, and the components of a block may be
given as a list or as one text with commas.
-/

namespace CqlWorkload

namespace Checked

/-- A double, or a value that converts to one. -/
def double : Value → Checked Double
  | .float x => .valid x
  | .int n => if (Double.ofInt n).isFinite then .valid (.ofInt n) else fault .notNumber
  | .bool b => .valid (.ofBool b)
  | .text s =>
    match NumberText.configured? s with
    | some x => .valid x
    | none => fault .unclearNumber
  | _ => fault .notNumber

def refuse {α : Type} (reason : String) : Checked α := fault (.rejected reason)

end Checked

open Checked

namespace TransformerSpec

def read : Value → Checked TransformerSpec :=
  record "TransformerSpec" fun fields =>
    TransformerSpec.mk <$> field fields "name" text <*>
      fieldOr fields "config" [] (mapping .valid)

end TransformerSpec

namespace Config

/-- A multiplier, which must not be below zero. -/
def readMultiplier (value : Value) : Checked Double :=
  (double value).andThen fun x =>
    if x.less (.zero false) then refuse "partition_multiplier must not be negative"
    else .valid x

/-- The value configured for a kind of operation, if there is one. -/
def timeoutValue? (entries : List (Value × Value)) (kind : TimeoutKind) : Option Value :=
  ((entries.filter fun entry => entry.1.plainText == kind.text).getLast?).map (·.2)

/-- The timeout of a kind of operation among the configured ones. -/
def readTimeout (entries : List (Value × Value)) (kind : TimeoutKind) : Checked Double :=
  match timeoutValue? entries kind with
  | none => .valid (Timeouts.standard.get kind)
  | some value => (double value).inField kind.text

/-- Is a key the name of a kind of operation? -/
def isTimeoutKey (key : Value) : Bool :=
  key.isWritable && (TimeoutKind.ofText? key.plainText).isSome

/-- What is said against a key that is not. -/
def timeoutKeyComplaint (key : Value) : String :=
  match key.writtenText with
  | .error reason => reason
  | .ok name =>
    "timeout type '" ++ name ++ "' unknown. Known types: " ++
      Text.quotedList (TimeoutKind.all.map (·.text))

/-- The configured timeouts laid over the standard ones. -/
def readTimeouts : Value → Checked Timeouts
  | .null => .valid .standard
  | .map entries =>
    match entries.find? fun entry => !isTimeoutKey entry.1 with
    | some entry => refuse (timeoutKeyComplaint entry.1)
    | none =>
      let get := readTimeout entries
      Timeouts.mk <$> get .create <*> get .truncate <*> get .drop <*> get .scan <*>
        get .select <*> get .insert <*> get .delete <*> get .update
  | value => refuse s!"Unrecognized type '{value.kindName}' for 'timeouts' config"

/-- The tags of a block, given as one text with commas or as a list. -/
def tagsOf (block : String) : Value → Except String (List String)
  | .text s =>
    .ok (((Text.splitAt ',' s.toList).map fun piece => Text.trim (String.ofList piece)).filter
      (· != ""))
  | .list items => items.mapM fun item => Text.trim <$> item.writtenText
  | value => .error s!"block '{block}': expected a list of components, got '{value.kindName}'"

/-- The components of tags, or the first tag that is unknown. -/
def componentsOf : List String → Except String (List Component)
  | [] => .ok []
  | tag :: rest =>
    match Component.ofTag? tag with
    | none => .error tag
    | some component => (component :: ·) <$> componentsOf rest

/-- The name of a block and its components, or the reason against it. -/
def readBlock (key value : Value) : Except String (String × List Component) := do
  let name ← key.writtenText
  let tags ← tagsOf name value
  match componentsOf tags with
  | .error tag =>
    .error (s!"Unable to create block entries for '{tag}' in block '{name}'. " ++
      "Known components: " ++ Text.quotedList Component.tags)
  | .ok components => return (name, components)

/-- The blocks of a plan on top of those before them, or the first reason against one. -/
def readBlocks (before : Entries (List Component)) :
    List (Value × Value) → Except String (Entries (List Component))
  | [] => .ok before
  | (key, value) :: rest =>
    match readBlock key value with
    | .error reason => .error reason
    | .ok (name, components) => readBlocks (before.put name components) rest

def readBlockplan : Value → Checked (Entries (List Component))
  | .null => refuse "required parameter 'blockplan' is missing"
  | .map entries =>
    match readBlocks [] entries with
    | .error reason => refuse reason
    | .ok plan => .valid plan
  | value => refuse s!"Unrecognized type '{value.kindName}' for 'blockplan' config"

def read : Value → Checked Config :=
  record "ExporterConfig" fun fields =>
    Config.mk <$> fieldOr fields "naming_template" Template.standard text <*>
      fieldOr fields "partition_multiplier" (.ofInt 1) readMultiplier <*>
      fieldOr fields "timeouts" .standard readTimeouts <*>
      fieldOr fields "elide_unused_tables" false truth <*>
      field fields "blockplan" readBlockplan <*>
      fieldOr fields "model_transformers" [] (list TransformerSpec.read) <*>
      fieldOr fields "type_bindings" [] (mapping text)

/-- The configuration that a document holds; null stands for an empty document. -/
def ofDocument (value : Value) : Except Failure Config :=
  match value with
  | .null => .error .noBlockPlan
  | .map entries =>
    match Value.lookup entries "blockplan" with
    | none | some .null => .error .noBlockPlan
    | some _ =>
      match read value with
      | .valid config => .ok config
      | .faulty issues => .error (.invalidConfiguration issues)
  | value => .error (.configurationKind value.kindName)

/-- The configuration of a mapping that may lack everything but its kind. -/
def ofValue (value : Value) : Except Failure Config :=
  match read value with
  | .valid config => .ok config
  | .faulty issues => .error (.invalidRecord "ExporterConfig" issues)

end Config

end CqlWorkload
