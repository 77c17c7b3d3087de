import CqlWorkload.FileTree
import CqlWorkload.Workload.Format

/-!
# Targets

The target of an export is the file that the workload is written to.  Unless it is
named it stands next to the schema, with the ending of the format.

**Overwriting.** A target has to have the ending of the format, and must not exist
unless its name begins with an underscore.
-/

namespace CqlWorkload.Target

/-- The target that is named, or the one next to the schema. -/
def choose (schema : Path) (named : Option Path) (format : Format) : Except Failure Path :=
  match named with
  | some target => .ok target
  | none =>
    match schema.withSuffix? format.suffix with
    | some target => .ok target
    | none => .error (.unnamedPath schema.text)

/-- May a file of this name be overwritten? -/
def isReplaceable (target : Path) : Bool := Text.beginsWith "_" target.name

/-- The target of an export, if it can be written. -/
def resolve (tree : FileTree) (cwd : Place) (schema : Path) (named : Option Path)
    (format : Format) : Except Failure Path :=
  match choose schema named format with
  | .error failure => .error failure
  | .ok target =>
    if target.suffix ≠ format.suffix then .error (.wrongSuffix format.suffix target.text)
    else if tree.holds cwd target && !isReplaceable target then
      .error (.targetExists target.text)
    else .ok target

end CqlWorkload.Target
