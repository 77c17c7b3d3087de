import CqlWorkload.Failure

/-!
# The registry of names

A registry issues names from a template and remembers the owner of each.  Asking
again for the same element in the same role gives the same name; a name that
would go to a second owner is refused, and so is one that a schema declares for
something else.
-/

namespace CqlWorkload

/-- The names of one compile. -/
structure Registry where
  template : Template
  /-- The elements that declare an identifier. -/
  declared : Entries (List Owner)
  /-- The owner of every issued name. -/
  issued : Entries Owner

namespace Registry

def start (template : Template) : Registry := ⟨template, [], []⟩

/-- Enter a name for an owner, or refuse it. -/
def claim (r : Registry) (name : String) (owner : Owner) : Except Failure Registry :=
  let declared := (r.declared.get? name).getD []
  match declared.head?, declared.any (·.sameElement owner) with
  | some first, false => .error (.shadowedName name owner first)
  | _, _ =>
    match r.issued.get? name with
    | some existing =>
      if existing = owner then .ok { r with issued := r.issued.put name owner }
      else .error (.claimedName name existing owner)
    | none => .ok { r with issued := r.issued.put name owner }

/-- The name of an element in the role that hints give it. -/
def nameFor (r : Registry) (element : Element) (hints : List (String × String)) :
    Except Failure (String × Registry) :=
  match element.owner? with
  | none => .error (.unnameable "str")
  | some base =>
    let role := Role.ofHints hints
    let owner := base.inRole role
    let name := Template.render (owner.value element.typeText? role) r.template.pieces
    if name = "" then .error (.emptyName r.template.text owner)
    else
      match r.claim name owner with
      | .error failure => .error failure
      | .ok r => .ok (name, r)

/-- The elements of a schema that declare identifiers. -/
def elements (s : Schema) : List Element :=
  s.keyspaces.map .keyspace ++ s.types.map .userType ++ s.tables.map .table ++
    s.tables.flatMap fun t => t.columns.map .column

/-- Enter the identifier that an element declares. -/
def declare (r : Registry) (element : Element) : Registry :=
  match element.owner? with
  | none => r
  | some owner =>
    { r with declared := r.declared.adjust owner.name fun old => old.getD [] ++ [owner] }

/-- Enter every identifier that a schema declares. -/
def prime (r : Registry) (s : Schema) : Registry :=
  (elements s).foldl declare r

end Registry
end CqlWorkload
