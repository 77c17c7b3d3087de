import CqlWorkload.Issue
import CqlWorkload.Naming.Owner
import CqlWorkload.Pattern.Matcher
import CqlWorkload.Workload.Component

/-!
# Failures

Every way in which the program can refuse its input is a cause with the data
that its message shows.

**Categories.** A failure belongs to a category.  The first five are those of a
compile that is refused for what it was asked to do; they are reported to the
user as they are, and so are the categories of files and values.
-/

namespace CqlWorkload

/-- Why a record cannot be built from named values. -/
inductive Misfit
  | unexpectedName (record name : String)
  | missingNames (record : String) (names : List String)
  | takesNothing (record : String)
  | notIterable (kind : String)
  | notSearchable (kind : String)
  | notHashable (kind : String)
  | notPattern
  | badPattern (fault : Pattern.Fault)
  deriving DecidableEq

namespace Misfit

/-- Names in quotes, the last one after `and`. -/
def namesText : List String → String
  | [] => ""
  | [a] => s!"'{a}'"
  | [a, b] => s!"'{a}' and '{b}'"
  | names =>
    Text.joinWith ", " (names.dropLast.map fun name => s!"'{name}'") ++
      ", and '" ++ names.getLast?.getD "" ++ "'"

def message : Misfit → String
  | .unexpectedName record name =>
    s!"{record}.__init__() got an unexpected keyword argument '{name}'"
  | .missingNames record names =>
    s!"{record}.__init__() missing " ++ FloatLayout.digitsText names.length ++
      " required positional argument" ++ (if names.length = 1 then "" else "s") ++ ": " ++
      namesText names
  | .takesNothing record => s!"{record}() takes no arguments"
  | .notIterable kind => s!"'{kind}' object is not iterable"
  | .notSearchable kind => s!"argument of type '{kind}' is not iterable"
  | .notHashable kind => s!"unhashable type: '{kind}'"
  | .notPattern => "first argument must be string or compiled pattern"
  | .badPattern fault => fault.message

end Misfit

/-- Why a statement cannot be rendered. -/
inductive StatementFault
  | emptySlot (record slot : String)
  | lengths (columns placeholders : Nat)
  deriving DecidableEq

def StatementFault.message : StatementFault → String
  | .emptySlot record slot => s!"{record}: slot '{slot}' is empty"
  | .lengths columns placeholders =>
    "InsertStatement: " ++ FloatLayout.digitsText columns ++ " columns but " ++
      FloatLayout.digitsText placeholders ++ " placeholders"

/-- Why a text of bytes is no text of characters. -/
structure DecodingFault where
  byte : Nat
  position : Nat
  /-- Last position of the faulty bytes, if there are several. -/
  last : Nat
  reason : String
  deriving DecidableEq

def DecodingFault.message (f : DecodingFault) : String :=
  if f.last = f.position then
    "'utf-8' codec can't decode byte 0x" ++ String.ofList (Text.hexText 2 f.byte) ++
      " in position " ++ FloatLayout.digitsText f.position ++ ": " ++ f.reason
  else
    "'utf-8' codec can't decode bytes in position " ++ FloatLayout.digitsText f.position ++
      "-" ++ FloatLayout.digitsText f.last ++ ": " ++ f.reason

/-- A cause for which the program refuses its input. -/
inductive Failure
  -- configurations
  | badTemplate (template : String) (fault : Template.Fault)
  | emptyName (template : String) (owner : Owner)
  | badTypePattern (fault : Pattern.Fault)
  | unknownTransformer (name : String) (known : List String)
  | unfitTransformer (name : String) (misfit : Misfit)
  | noBlockPlan
  | configurationKind (kind : String)
  | invalidConfiguration (issues : List Issue)
  | noConfigurationFile (path : String)
  | unreadableConfiguration (path : String)
  | configurationFileKind (path kind : String)
  -- block plans
  | repeatedOp (block op component : String)
  | unknownComponent (tag : String)
  -- names
  | shadowedName (name : String) (owner declared : Owner)
  | claimedName (name : String) (existing owner : Owner)
  -- bindings
  | unboundType (column type : String) (libraries : List String)
  -- statistics
  | missingStatistic (table name : String) (known : List String)
  | unreadableStatistic (table name written : String)
  -- values
  | nanWhole
  | badModulus (modulo : Int)
  | badStatement (fault : StatementFault)
  | emptySchemaFile (path : String)
  | invalidSchemaFile (path : String) (issues : List Issue)
  | impossibleValue (reason : String)
  | unnamedPath (path : String)
  | unknownLevel (name : String)
  -- other kinds of input
  | infiniteWhole
  | wideCode
  | wideWeight
  | undecodable (fault : DecodingFault)
  | noSchemaFile (path : String)
  | isDirectory (path : String)
  | notDirectory (path : String)
  | fileExists (path : String)
  | unfit (m : Misfit)
  | unnameable (kind : String)
  | noItemAssignment (kind : String)
  | notMatchable (kind : String)
  | noMember (kind member : String)
  | noLogLevel (name : String)
  | unknownColumn (table name : String)
  | unknownTimeout (kind : String)
  | unknownTruth (word : String)
  | missingDigits
  | badPattern (fault : Pattern.Fault)
  | invalidRecord (record : String) (issues : List Issue)
  | wrongSuffix (suffix target : String)
  | targetExists (target : String)
  -- limits of this library
  | unsupportedDocument (path : String)
  deriving DecidableEq

namespace Failure

inductive Category
  | configuration
  | blockPlan
  | nameCollision
  | bindingResolution
  | statistic
  | value
  | validation
  | decoding
  | missingFile
  | directory
  | notDirectory
  | existingFile
  | type
  | attribute
  | key
  | index
  | overflow
  | pattern
  | badTarget
  | unsupported
  deriving DecidableEq

def category : Failure → Category
  | .badTemplate .. | .emptyName .. | .badTypePattern .. | .unknownTransformer ..
  | .unfitTransformer .. | .noBlockPlan | .configurationKind .. | .invalidConfiguration ..
  | .noConfigurationFile .. | .unreadableConfiguration .. | .configurationFileKind .. =>
    .configuration
  | .repeatedOp .. | .unknownComponent .. => .blockPlan
  | .shadowedName .. | .claimedName .. => .nameCollision
  | .unboundType .. => .bindingResolution
  | .missingStatistic .. | .unreadableStatistic .. => .statistic
  | .nanWhole | .badModulus .. | .badStatement .. | .emptySchemaFile ..
  | .invalidSchemaFile .. | .impossibleValue .. | .unnamedPath .. | .unknownLevel .. => .value
  | .invalidRecord .. => .validation
  | .undecodable .. => .decoding
  | .noSchemaFile .. => .missingFile
  | .isDirectory .. => .directory
  | .notDirectory .. => .notDirectory
  | .fileExists .. => .existingFile
  | .unfit (.badPattern fault) | .badPattern fault =>
    match fault.cause.kind with
    | .form => .pattern
    | .overflow => .overflow
    | .value => .value
  | .unfit .. | .unnameable .. | .noItemAssignment .. | .notMatchable .. => .type
  | .noMember .. | .noLogLevel .. => .attribute
  | .unknownColumn .. | .unknownTimeout .. | .unknownTruth .. => .key
  | .missingDigits => .index
  | .infiniteWhole | .wideCode | .wideWeight => .overflow
  | .wrongSuffix .. | .targetExists .. => .badTarget
  | .unsupportedDocument .. => .unsupported

/-- Is this one of the failures that a compile is refused with? -/
def isCompileFailure (f : Failure) : Bool :=
  match f.category with
  | .configuration | .blockPlan | .nameCollision | .bindingResolution | .statistic => true
  | _ => false

/-- Is the failure reported to the user of the command line in one sentence? -/
def isReported (f : Failure) : Bool :=
  f.isCompileFailure ||
    match f.category with
    | .value | .validation | .decoding | .missingFile => true
    | _ => false

/-- The faults that a failure lists. -/
def issues : Failure → Option (Source × List Issue)
  | .invalidConfiguration issues | .invalidRecord _ issues => some (.values, issues)
  | .invalidSchemaFile _ issues => some (.json, issues)
  | _ => none

def message : Failure → String
  | .badTemplate template fault => fault.message template
  | .emptyName template owner =>
    s!"naming template '{template}' produced an empty name for " ++ owner.description
  | .badTypePattern fault => "Invalid pattern in 'type_bindings': " ++ fault.message
  | .unknownTransformer name known =>
    s!"Model transformer '{name}' not found. Available transformers: " ++
      Text.joinWith ", " known
  | .unfitTransformer name misfit =>
    s!"Invalid configuration for model transformer '{name}': " ++ misfit.message
  | .noBlockPlan => "Error with generate blocks, required parameter 'blockplan' is missing"
  | .configurationKind kind => s!"exporter configuration must be a mapping, got '{kind}'"
  | .invalidConfiguration _ => "Invalid exporter configuration: "
  | .noConfigurationFile path => s!"Exporter configuration not found: {path}"
  | .unreadableConfiguration path => s!"Failed to parse exporter configuration {path}"
  | .configurationFileKind path kind =>
    s!"Exporter configuration {path} must be a mapping, got {kind}"
  | .repeatedOp block op component =>
    s!"block '{block}': op '{op}' from component '{component}' is already defined in this block"
  | .unknownComponent tag =>
    s!"Unable to create block entries for '{tag}'. Known components: " ++
      Text.quotedList Component.tags
  | .shadowedName name owner declared =>
    s!"generated name '{name}' for " ++ owner.description ++
      " shadows the schema identifier of " ++ declared.description ++ "; adjust naming_template"
  | .claimedName name existing owner =>
    s!"name '{name}' is claimed by both " ++ existing.description ++ " and " ++
      owner.description ++ "; adjust naming_template"
  | .unboundType column type libraries =>
    s!"Unable to find a binding for column '{column}' of type '{type}' in libraries " ++
      Text.quotedList libraries
  | .missingStatistic table name known =>
    s!"table '{table}' has statistics but no '{name}' attribute. Known attributes: " ++
      Text.quotedList known
  | .unreadableStatistic table name written =>
    s!"table '{table}': statistic '{name}' is not numeric: '{written}'"
  | .nanWhole => "cannot convert float NaN to integer"
  | .badModulus modulo => "modulo must be positive, got " ++ intText modulo
  | .badStatement fault => fault.message
  | .emptySchemaFile path =>
    s!"Schema file is empty: {path}. The file exists but contains no JSON data."
  | .invalidSchemaFile path _ => s!"Failed to load schema from {path}: "
  | .impossibleValue reason => reason
  | .unnamedPath path => "PosixPath(" ++ Text.quoted path ++ ") has an empty name"
  | .unknownLevel name => "Unknown level: " ++ Text.quoted name
  | .infiniteWhole => "cannot convert float infinity to integer"
  | .wideCode => "Python int too large to convert to C int"
  | .wideWeight => "int too large to convert to float"
  | .undecodable fault => fault.message
  | .noSchemaFile path => s!"Schema file not found: {path}"
  | .isDirectory path => "[Errno 21] Is a directory: " ++ Text.quoted path
  | .notDirectory path => "[Errno 20] Not a directory: " ++ Text.quoted path
  | .fileExists path => "[Errno 17] File exists: " ++ Text.quoted path
  | .unfit m => m.message
  | .unnameable kind => s!"cannot name element of type '{kind}'"
  | .noItemAssignment kind => s!"'{kind}' object does not support item assignment"
  | .notMatchable kind => s!"expected string or bytes-like object, got '{kind}'"
  | .noMember kind member => s!"'{kind}' object has no attribute '{member}'"
  | .noLogLevel name => s!"module 'logging' has no attribute '{name}'"
  | .unknownColumn table name => s!"{table}: no column named '{name}'"
  | .unknownTimeout kind => Text.quoted kind
  | .unknownTruth word => Text.quoted word
  | .missingDigits => "string index out of range"
  | .badPattern fault => fault.message
  | .invalidRecord record _ => record
  | .wrongSuffix suffix target => s!"Target file must end in {suffix}: {target}"
  | .targetExists target =>
    s!"Target file already exists: {target}. Remove it, or use a file name starting with " ++
      "'_' to allow overwriting."
  | .unsupportedDocument path => s!"The document {path} asks for a value of an unknown kind"

/-- The number of faults in a checked record. -/
def countText (issues : List Issue) (record : String) : String :=
  FloatLayout.digitsText issues.length ++ " validation error" ++
    (if issues.length = 1 then "" else "s") ++ " for " ++ record

def headline (f : Failure) : String :=
  let text := match f with
    | .invalidConfiguration issues => f.message ++ countText issues "ExporterConfig"
    | .invalidSchemaFile _ issues => f.message ++ countText issues "SchemaModel"
    | .invalidRecord record issues => countText issues record
    | f => f.message
  String.ofList (text.toList.takeWhile (· != '\n'))

def ofNotWhole : Double.NotWhole → Failure
  | .infinite => .infiniteWhole
  | .nan => .nanWhole

/-- The failure of a setting that is a pattern.  A fault in its form is one of the
configuration; other complaints about it are not foreseen. -/
def ofPattern (fault : Pattern.Fault) (ofForm : Pattern.Fault → Failure) : Failure :=
  if fault.cause.kind = .form then ofForm fault else .badPattern fault

/-- The failure of a transformer whose settings do not fit. -/
def ofMisfit (name : String) : Misfit → Failure
  | .badPattern fault => ofPattern fault fun fault => .unfitTransformer name (.badPattern fault)
  | misfit => .unfitTransformer name misfit

def ofReplication : Replication.Fault → Failure
  | .noItems kind => .noMember kind "items"
  | .unwritten reason => .impossibleValue reason

end Failure

def Component.named (tag : String) : Except Failure Component :=
  match ofTag? tag with
  | some component => .ok component
  | none => .error (.unknownComponent tag)

def Table.lookup (t : Table) (name : String) : Except Failure Column :=
  match t.column? name with
  | some c => .ok c
  | none => .error (.unknownColumn t.fullName name)

end CqlWorkload
