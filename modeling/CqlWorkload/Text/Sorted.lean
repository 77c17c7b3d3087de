/-!
# Sorted texts

Texts are sorted by the codes of their characters.  Messages that list names
list each of them once.
-/

namespace CqlWorkload.Text

/-- Put a name into a sorted list, unless it is there. -/
def insertName (name : String) : List String → List String
  | [] => [name]
  | other :: rest =>
    if name = other then other :: rest
    else if name < other then name :: other :: rest
    else other :: insertName name rest

/-- The different names of a list, sorted. -/
def sortedNames (names : List String) : List String :=
  names.foldr insertName []

/-- Put an entry into a list sorted by name, behind those of the same name. -/
def insertEntry {α : Type} (entry : String × α) : List (String × α) → List (String × α)
  | [] => [entry]
  | other :: rest =>
    if entry.1 < other.1 then entry :: other :: rest else other :: insertEntry entry rest

/-- Entries sorted by name; entries of the same name stay in order. -/
def sortedEntries {α : Type} (entries : List (String × α)) : List (String × α) :=
  entries.foldl (fun sorted entry => insertEntry entry sorted) []

/-- The names that occur more than once, sorted. -/
def repeatedNames (names : List String) : List String :=
  sortedNames (names.filter fun name => 1 < names.count name)

end CqlWorkload.Text
