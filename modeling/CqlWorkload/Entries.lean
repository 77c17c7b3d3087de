/-!
# Ordered entries

A table from names to values that remembers the order in which its names were
first put.  Putting a value under a name that is there already replaces the
value and keeps the place.
-/

namespace CqlWorkload

/-- Names with their values, in order. -/
abbrev Entries (α : Type) := List (String × α)

namespace Entries

variable {α : Type}

def get? (entries : Entries α) (name : String) : Option α :=
  match entries with
  | [] => none
  | (key, value) :: rest => if key = name then some value else get? rest name

def put (entries : Entries α) (name : String) (value : α) : Entries α :=
  match entries with
  | [] => [(name, value)]
  | (key, old) :: rest =>
    if key = name then (key, value) :: rest else (key, old) :: put rest name value

def putAll (entries : Entries α) (more : List (String × α)) : Entries α :=
  more.foldl (fun acc entry => put acc entry.1 entry.2) entries

def keys (entries : Entries α) : List String := entries.map Prod.fst

/-- Change the value under a name, or put a first one. -/
def adjust (entries : Entries α) (name : String) (change : Option α → α) : Entries α :=
  put entries name (change (get? entries name))

/-- Group items by a name; groups are in the order of their first items. -/
def groupBy (name : α → String) (items : List α) : Entries (List α) :=
  items.foldl (fun groups item => adjust groups (name item) fun old => old.getD [] ++ [item]) []

end Entries
end CqlWorkload
