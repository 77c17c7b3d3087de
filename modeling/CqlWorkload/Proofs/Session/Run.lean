import CqlWorkload.Binding.Accumulator
import CqlWorkload.Proofs.Naming.Registry
import CqlWorkload.Proofs.Workload.Step

/-!
# Runs of calls

A generator asks the session of its compile for names and for bindings of columns,
in any order.

**One call.** `Reply` says once what a call may come to: it is refused and leaves the
session as it was, or it issues a name, or it is answered with the binding of its
recipe, which is made unless there is one.

**Runs.** A run of calls extends the registry and puts bindings behind those that there
are (`leads_after`), so what was answered once is answered again.
-/

namespace CqlWorkload

/-- What a session may be asked for: the name of an element in the role that hints give
it, or the binding of a column behind a first stage. -/
inductive Call
  | name (element : Element) (hints : Entries Value)
  | binding (column : Column) (modifier : String) (hints : Entries Value)

inductive Answer
  | name (name : String)
  | binding (b : Binding)
  deriving DecidableEq

namespace Call

/-- What a call asks a name for, if it comes to that. -/
def element : Call → Element
  | .name e _ => e
  | .binding c _ _ => .column c

def hints : Call → Entries Value
  | .name _ hints => hints
  | .binding _ _ hints => hints

/-- The element and role that a name is asked for. -/
def owner? (q : Call) : Option Owner := q.element.ownerIn? (Role.textsOf q.hints)

/-- What a template makes of a call. -/
def nameFrom (t : Template) (q : Call) : String := t.nameOf q.element (Role.textsOf q.hints)

/-- The recipe that a binding is asked for. -/
def recipe? (libraries : List Library) : Call → Option String
  | .name _ _ => none
  | .binding c modifier _ =>
    (Binding.recipe? libraries c.trimmedType).map (Binding.modified modifier)

end Call

/-- A session in which no binding was made. -/
def Session.unbound (registry : Registry) : Session := ⟨registry, [], []⟩

theorem Step.nameFor_of_error {s : Session} {e : Element} {hints : List (String × String)}
    {failure : Failure} (h : s.registry.nameFor e hints = .error failure) :
    Step.nameFor e hints s = (.error failure, s) := by
  rw [Step.nameFor, h]

namespace Context

/-- The answer of a session to a call. -/
def ask (ctx : Context) : Call → Step Answer
  | .name e hints => do return .name (← Step.nameFor e (Role.textsOf hints))
  | .binding c modifier hints => do return .binding (← ctx.bind c modifier (Role.textsOf hints))

/-- The session after some calls, refused or not. -/
def after (ctx : Context) (s : Session) (calls : List Call) : Session :=
  calls.foldl (fun s q => (ctx.ask q s).2) s

variable {ctx : Context} {s t u : Session}

/-! ## One call -/

/-- What a call comes to in a session. -/
inductive Reply (ctx : Context) (s : Session) : Call → Except Failure Answer → Session → Prop
  | refused (q : Call) (failure : Failure) : Reply ctx s q (.error failure) s
  | named {e : Element} {hints : Entries Value} {name : String} {registry : Registry}
      (issued : s.registry.nameFor e (Role.textsOf hints) = .ok (name, registry)) :
      Reply ctx s (.name e hints) (.ok (.name name)) { s with registry := registry }
  | shared {c : Column} {modifier : String} {hints : Entries Value} {b : Binding}
      (recipe : Call.recipe? ctx.libraries (.binding c modifier hints) = some b.recipe)
      (found : s.bindings.find? (·.recipe == b.recipe) = some b) :
      Reply ctx s (.binding c modifier hints) (.ok (.binding b)) s
  | made {c : Column} {modifier : String} {hints : Entries Value} {b : Binding}
      {registry : Registry}
      (recipe : Call.recipe? ctx.libraries (.binding c modifier hints) = some b.recipe)
      (unbound : s.bindings.find? (·.recipe == b.recipe) = none)
      (issued : s.registry.nameFor (.column c) (Role.textsOf hints) = .ok (b.name, registry))
      (log : Log) :
      Reply ctx s (.binding c modifier hints) (.ok (.binding b))
        ⟨registry, s.bindings ++ [b], log⟩

theorem ask_name_of_ok {e : Element} {hints : Entries Value} {name : String} {registry : Registry}
    (h : s.registry.nameFor e (Role.textsOf hints) = .ok (name, registry)) :
    ctx.ask (.name e hints) s = (.ok (.name name), { s with registry := registry }) :=
  Step.bind_of_ok (Step.nameFor_eq_ok.mpr ⟨registry, h, rfl⟩)

theorem ask_name_of_error {e : Element} {hints : Entries Value} {failure : Failure}
    (h : s.registry.nameFor e (Role.textsOf hints) = .error failure) :
    ctx.ask (.name e hints) s = (.error failure, s) :=
  Step.bind_of_error (Step.nameFor_of_error h)

theorem bind_of_recipe {c : Column} {base : String}
    (h : Binding.recipe? ctx.libraries c.trimmedType = some base) (modifier : String)
    (hints : List (String × String)) (s : Session) :
    ctx.bind c modifier hints s =
      match s.bindings.find? (·.recipe == Binding.modified modifier base) with
      | some b => (.ok b, s)
      | none => (do
          let name ← Step.nameFor (.column c) hints
          enter c ⟨name, Binding.modified modifier base⟩) s := by
  have hrecipe : Step.ofExcept (Binding.recipeFor ctx.libraries c) s = (.ok base, s) := by
    rw [Step.ofExcept, Binding.recipeFor, h]
  have hexisting : existing (Binding.modified modifier base) s =
      (.ok (s.bindings.find? (·.recipe == Binding.modified modifier base)), s) := rfl
  refine (Step.bind_of_ok hrecipe).trans ((Step.bind_of_ok hexisting).trans ?_)
  cases s.bindings.find? (·.recipe == Binding.modified modifier base) <;> rfl

theorem ask_binding_of_found {c : Column} {modifier : String} {hints : Entries Value} {b : Binding}
    (hr : Call.recipe? ctx.libraries (.binding c modifier hints) = some b.recipe)
    (hf : s.bindings.find? (·.recipe == b.recipe) = some b) :
    ctx.ask (.binding c modifier hints) s = (.ok (.binding b), s) := by
  obtain ⟨base, hbase, hb⟩ := Option.map_eq_some_iff.mp hr
  refine Step.bind_of_ok ?_
  rw [bind_of_recipe hbase, hb, hf]

/-- A column of a type that no library knows is refused. -/
theorem reply_of_untyped {c : Column} (h : Binding.recipe? ctx.libraries c.trimmedType = none)
    (modifier : String) (hints : Entries Value) :
    ctx.Reply s (.binding c modifier hints) (ctx.ask (.binding c modifier hints) s).1
      (ctx.ask (.binding c modifier hints) s).2 := by
  have hrecipe : Step.ofExcept (Binding.recipeFor ctx.libraries c) s =
      (.error (.unboundType c.fullName c.trimmedType (ctx.libraries.map (·.name))), s) := by
    rw [Step.ofExcept, Binding.recipeFor, h]
  have hbind : ctx.bind c modifier (Role.textsOf hints) s = _ := Step.bind_of_error hrecipe
  rw [ask, Step.bind_of_error hbind]
  exact .refused _ _

/-- A binding is made for a recipe that has none, if its name is issued. -/
theorem reply_of_unbound {c : Column} {base modifier : String} (hints : Entries Value)
    (h : Binding.recipe? ctx.libraries c.trimmedType = some base)
    (hf : s.bindings.find? (·.recipe == Binding.modified modifier base) = none) :
    ctx.Reply s (.binding c modifier hints) (ctx.ask (.binding c modifier hints) s).1
      (ctx.ask (.binding c modifier hints) s).2 := by
  have hbind := bind_of_recipe h modifier (Role.textsOf hints) s
  rw [hf] at hbind
  cases hn : s.registry.nameFor (.column c) (Role.textsOf hints) with
  | error failure =>
      have hstep := Step.nameFor_of_error hn
      rw [ask, Step.bind_of_error (hbind.trans (Step.bind_of_error hstep))]
      exact .refused _ _
  | ok found =>
      have hstep := Step.nameFor_eq_ok.mpr ⟨found.2, hn, rfl⟩
      rw [ask, Step.bind_of_ok (hbind.trans (Step.bind_of_ok hstep))]
      exact .made (b := ⟨found.1, _⟩) (congrArg (Option.map _) h) hf hn _

/-- **What a call does.** -/
theorem reply_ask (ctx : Context) (s : Session) (q : Call) :
    ctx.Reply s q (ctx.ask q s).1 (ctx.ask q s).2 := by
  cases q with
  | name e hints =>
      cases hn : s.registry.nameFor e (Role.textsOf hints) with
      | error failure =>
          rw [ask_name_of_error hn]
          exact .refused _ _
      | ok found =>
          rw [ask_name_of_ok hn]
          exact .named hn
  | binding c modifier hints =>
      cases hbase : Binding.recipe? ctx.libraries c.trimmedType with
      | none => exact reply_of_untyped hbase modifier hints
      | some base =>
          cases hf : s.bindings.find? (·.recipe == Binding.modified modifier base) with
          | none => exact reply_of_unbound hints hbase hf
          | some b =>
              have hb : b.recipe = Binding.modified modifier base := by
                simpa using List.find?_some hf
              have hr : Call.recipe? ctx.libraries (.binding c modifier hints) =
                  some b.recipe := hb ▸ congrArg (Option.map _) hbase
              rw [← hb] at hf
              rw [ask_binding_of_found hr hf]
              exact .shared hr hf

theorem reply_of_ask {q : Call} {found : Except Failure Answer}
    (h : ctx.ask q s = (found, t)) : ctx.Reply s q found t := by
  have hreply := reply_ask ctx s q
  rwa [h] at hreply

end Context

/-! ## Later sessions -/

/-- A session after some calls: issued names keep their owners, and bindings their
places. -/
structure Session.Leads (s t : Session) : Prop where
  registry : s.registry.Extends t.registry
  bindings : s.bindings <+: t.bindings

theorem Session.Leads.refl (s : Session) : s.Leads s := ⟨.refl _, List.prefix_refl _⟩

theorem Session.Leads.trans {s t u : Session} (hst : s.Leads t) (htu : t.Leads u) : s.Leads u :=
  ⟨hst.registry.trans htu.registry, hst.bindings.trans htu.bindings⟩

namespace Context

variable {ctx : Context} {s t u : Session}

theorem Reply.leads {q : Call} {found : Except Failure Answer} (h : ctx.Reply s q found t) :
    s.Leads t := by
  cases h with
  | refused => exact .refl s
  | named issued =>
      obtain ⟨-, -, -, hr, -⟩ := Registry.nameFor_eq_ok issued
      exact ⟨hr, List.prefix_refl _⟩
  | shared => exact .refl s
  | made _ _ issued =>
      obtain ⟨-, -, -, hr, -⟩ := Registry.nameFor_eq_ok issued
      exact ⟨hr, List.prefix_append _ _⟩

/-- What was answered is answered again in any later session, which stays as it is. -/
theorem Reply.again {q : Call} {answer : Answer} (h : ctx.Reply s q (.ok answer) t)
    (hu : t.Leads u) : ctx.ask q u = (.ok answer, u) := by
  obtain ⟨hregistry, more, hmore⟩ := hu
  cases h with
  | named issued =>
      rw [ask_name_of_ok (Registry.nameFor_again issued hregistry)]
  | shared recipe found =>
      refine ask_binding_of_found recipe ?_
      rw [← hmore, List.find?_append, found, Option.some_or]
  | @made _ _ _ b _ recipe unbound =>
      refine ask_binding_of_found recipe ?_
      rw [← hmore, List.find?_append, List.find?_append, unbound]
      simp

/-- **Runs of calls** lead on from the session that they start in. -/
theorem leads_after (ctx : Context) (s : Session) (calls : List Call) :
    s.Leads (ctx.after s calls) := by
  induction calls generalizing s with
  | nil => exact .refl s
  | cons q rest ih => exact (reply_ask ctx s q).leads.trans (ih _)

/-- **Calls are stable.** A call that is refused leaves names, bindings and log as
they were, and one that is answered is answered the same after any further calls. -/
theorem ask_stable (ctx : Context) (s : Session) (q : Call) :
    (∀ failure t, ctx.ask q s = (.error failure, t) → t = s) ∧
    (∀ answer t, ctx.ask q s = (.ok answer, t) → ∀ calls,
      ctx.ask q (ctx.after t calls) = (.ok answer, ctx.after t calls)) := by
  constructor
  · intro failure t h
    cases reply_of_ask h
    rfl
  · intro answer t h calls
    exact (reply_of_ask h).again (leads_after ctx t calls)

/-! ## An example -/

/-- A context with the built-in library only. -/
def builtIn : Context where
  config := {
    namingTemplate := Template.standard
    partitionMultiplier := .ofInt 1
    timeouts := .standard
    elideUnusedTables := false
    blockplan := []
    transformers := []
    typeBindings := [] }
  libraries := [.builtIn]

end Context

/-- A session without names, which calls elements by their names. -/
def Session.byName : Session := .unbound (.start ⟨"[NAME]", [.bracket "" .name ""]⟩)

/-- The first column of a table, for whole numbers. -/
def Column.ofTable (table : String) : Column :=
  ⟨"id", "int", .partitionKey, some "shop", some table⟩

/-- The name of a column is refused to that of another table, and stays with it. -/
theorem Context.ask_stable_id : ∃ b t failure,
    Context.builtIn.ask (.binding (.ofTable "orders") "" []) .byName = (.ok (.binding b), t) ∧
    Context.builtIn.ask (.name (.column (.ofTable "users")) []) t = (.error failure, t) ∧
    Context.builtIn.ask (.binding (.ofTable "orders") "" [])
      (Context.builtIn.after t [.name (.column (.ofTable "users")) []]) =
      (.ok (.binding b), Context.builtIn.after t [.name (.column (.ofTable "users")) []]) := by
  have hbound : Context.builtIn.ask (.binding (.ofTable "orders") "" []) .byName =
      (.ok (.binding ⟨"id", "Hash(); ToInt()"⟩),
        (Context.builtIn.ask (.binding (.ofTable "orders") "" []) .byName).2) := rfl
  obtain ⟨failure, t, hrefused⟩ : ∃ failure t, Context.builtIn.ask
      (.name (.column (.ofTable "users")) [])
      (Context.builtIn.ask (.binding (.ofTable "orders") "" []) .byName).2 =
      (.error failure, t) := ⟨_, _, rfl⟩
  obtain rfl := (ask_stable _ _ _).1 failure t hrefused
  exact ⟨_, _, failure, hbound, hrefused, (ask_stable _ _ _).2 _ _ hbound _⟩

end CqlWorkload
