import CqlWorkload.Config.Basic
import CqlWorkload.Transform.Basic

/-!
# The catalog of transformers

A catalog knows kinds of transformers by name and builds them from settings.
Settings of other names, patterns that cannot be read, and a setting that is
missing make a transformer unfit.
-/

namespace CqlWorkload

/-- The kinds of transformers that can be built. -/
inductive Transformer.Kind
  | keyspaceFilter
  | replication
  | ratios
  | clearing
  deriving DecidableEq

/-- Kinds of transformers by name. -/
abbrev Catalog := Entries Transformer.Kind

namespace Catalog

def builtIn : Catalog := [("keyspace_filter", .keyspaceFilter), ("replication", .replication),
  ("ratio_calculator", .ratios)]

/-- The known names, sorted. -/
def names (catalog : Catalog) : List String := Text.sortedNames catalog.keys

def register (catalog : Catalog) (name : String) (kind : Transformer.Kind) : Catalog × Log :=
  (catalog.put name kind, Log.info s!"Registered model transformer: {name}")

/-- Refuse settings whose names are none of the known ones. -/
def onlyNames (record : String) (known : List String) (settings : Entries Value) :
    Except Misfit Unit :=
  match settings.keys.find? (!known.contains ·) with
  | some name => .error (.unexpectedName record name)
  | none => .ok ()

/-- The pattern that a setting is the text of. -/
def patternOf (value : Value) (m : Matcher := .standard) : Except Misfit (String → Bool) :=
  match value with
  | .text s => (m.read false s).mapError .badPattern
  | .list _ | .map _ => .error (.notHashable value.typeTitle)
  | _ => .error .notPattern

/-- The items of a setting: those of a list, the keys of a mapping, the characters
of a text, and none of a setting that says nothing. -/
def itemsOf (value : Value) : Except Misfit (List Value) :=
  if !value.isTruthy then .ok []
  else
    match value with
    | .list items => .ok items
    | .map entries => .ok (entries.map (·.1))
    | .text s => .ok (s.toList.map fun c => .text (String.ofList [c]))
    | value => .error (.notIterable value.typeTitle)

/-- The patterns of a setting by name. -/
def patternsOf (settings : Entries Value) (name : String) (m : Matcher := .standard) :
    Except Misfit (List (String → Bool)) := do
  let items ← itemsOf ((settings.get? name).getD .null)
  items.mapM (patternOf · m)

/-- A null setting counts as absent. -/
def presentOnly : Option Value → Option Value
  | some .null => none
  | found => found

/-- Build a transformer of a kind. -/
def build (kind : Transformer.Kind) (settings : Entries Value) (m : Matcher := .standard) :
    Except Misfit Transformer :=
  match kind with
  | .keyspaceFilter => do
    onlyNames "KeyspaceFilter" ["include", "exclude"] settings
    let included ← patternsOf settings "include" m
    let excluded ← patternsOf settings "exclude" m
    return .keyspaceFilter included excluded
  | .replication => do
    onlyNames "ReplicationOverride" ["replication", "keyspaces"] settings
    match settings.get? "replication" with
    | none => .error (.missingNames "ReplicationOverride" ["replication"])
    | some value => return .replication value (presentOnly (settings.get? "keyspaces"))
  | .ratios =>
    if settings.isEmpty then .ok .ratios else .error (.takesNothing "RatioCalculator")
  | .clearing => .ok .clearing

def get (catalog : Catalog) (name : String) (settings : Entries Value)
    (m : Matcher := .standard) : Except Failure Transformer :=
  match catalog.get? name with
  | none => .error (.unknownTransformer name catalog.names)
  | some kind => (build kind settings m).mapError (.ofMisfit name)

/-- The transformers that a configuration names, in order. -/
def getAll (catalog : Catalog) (specs : List TransformerSpec) (m : Matcher := .standard) :
    Except Failure (List Transformer) :=
  specs.mapM fun spec => catalog.get spec.name spec.settings m

end Catalog
end CqlWorkload
