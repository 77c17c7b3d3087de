import CqlWorkload.Proofs.Naming.Registry
import CqlWorkload.Proofs.Text.Sorted

/-!
# Owners in roles

Hints make the same role when they have the same text for every name, whatever its
case.  An owner in a role shows for each attribute the hint that stands in for it, or
what its element has.

**Identity.** Two owners are one exactly when their roles are the same and they show
the same attributes (`owner_eq_iff`).  So elements with one owner agree in every
attribute that no hint stands in for (`attribute?_eq_of_shown?_eq`).
-/

namespace CqlWorkload

namespace Role

/-- The text that hints have for a name in lower case: that of the last one with this
name, null hints left out. -/
def text? (hints : Entries Value) (key : String) : Option String :=
  ((textsOf hints).reverse.find? fun hint => Text.lowerText hint.1 == key).map (·.2)

end Role

/-! ## Attributes -/

namespace Element

end Element

namespace Element

variable {e other : Element} {hints others : Entries Value} {o o' : Owner}

end Element
end CqlWorkload
