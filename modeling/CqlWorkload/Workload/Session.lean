import CqlWorkload.Config.Basic
import CqlWorkload.Binding.Library
import CqlWorkload.Log
import CqlWorkload.Naming.Registry

/-!
# Compile sessions

A session is the state of one compile: the names that were issued, the bindings
that were made and the log.  A step takes a session to the next one and may
fail; what it did before it failed stays done.
-/

namespace CqlWorkload

/-- A named recipe of a data generator. -/
structure Binding where
  name : String
  recipe : String
  deriving DecidableEq

/-- How a statement refers to a binding. -/
def Binding.placeholder (b : Binding) : String := "\x7b" ++ b.name ++ "\x7d"

/-- What stays the same during a compile. -/
structure Context where
  config : Config
  /-- The libraries that are asked for a recipe, in order. -/
  libraries : List Library

structure Session where
  registry : Registry
  /-- The bindings in the order in which they were made. -/
  bindings : List Binding
  log : Log

/-- A step of a compile. -/
def Step (α : Type) : Type := Session → Except Failure α × Session

namespace Step

variable {α β : Type}

instance : Monad Step where
  pure a := fun s => (.ok a, s)
  bind m f := fun s =>
    match m s with
    | (.ok a, s) => f a s
    | (.error failure, s) => (.error failure, s)

/-- A result that needs no session. -/
def ofExcept (found : Except Failure α) : Step α := fun s => (found, s)

theorem ofExcept_ok_bind (a : α) (f : α → Step β) : (ofExcept (.ok a) >>= f) = f a := rfl

/-- What follows a result matters for that result only. -/
theorem ofExcept_bind_congr {found : Except Failure α} {f g : α → Step β}
    (h : ∀ a, found = .ok a → f a = g a) : (ofExcept found >>= f) = (ofExcept found >>= g) := by
  cases found with
  | error failure => rfl
  | ok a => exact h a rfl

def report (entries : Log) : Step Unit := fun s => (.ok (), { s with log := s.log ++ entries })

/-- Issue the name of an element in a role. -/
def nameFor (element : Element) (hints : List (String × String)) : Step String := fun s =>
  match s.registry.nameFor element hints with
  | .error failure => (.error failure, s)
  | .ok (name, registry) => (.ok name, { s with registry := registry })

/-- Enter every identifier that a schema declares. -/
def prime (schema : Schema) : Step Unit := fun s =>
  let registry := s.registry.prime schema
  (.ok (), { s with
    registry := registry
    log := s.log ++ Log.debug ("Naming registry primed with " ++
      FloatLayout.digitsText registry.declared.length ++ " schema identifiers") })

end Step

namespace Context

/-- The context of a configuration and the session that a compile starts with. -/
def create (config : Config) (m : Matcher := .standard) : Except Failure (Context × Session) :=
  match Template.read config.namingTemplate with
  | .error fault => .error (.badTemplate config.namingTemplate fault)
  | .ok template =>
    let registry := Registry.start template
    if config.typeBindings.isEmpty then .ok (⟨config, [.builtIn]⟩, ⟨registry, [], []⟩)
    else
      match Library.ofPatterns "type_bindings"
          (config.typeBindings.map fun entry => (entry.1, some entry.2)) m with
      | .error fault => .error (.ofPattern fault .badTypePattern)
      | .ok library =>
        .ok (⟨config, [library, .builtIn]⟩,
          ⟨registry, [], Log.debug ("Built bindings library 'type_bindings' with " ++
            FloatLayout.digitsText library.rules.length ++ " rules")⟩)

end Context
end CqlWorkload
