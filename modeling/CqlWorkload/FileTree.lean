import CqlWorkload.Path
import CqlWorkload.Text.Utf8

/-!
# File trees

A file tree is a map from places to contents, a place being the list of the
parts that lead to it from the top.  Every beginning of a place is a directory.
-/

namespace CqlWorkload

/-- The parts that lead to a file or directory from the top of the tree. -/
abbrev Place := List String

abbrev FileTree := List (Place × Content)

namespace FileTree

def get? (tree : FileTree) (place : Place) : Option Content :=
  match tree with
  | [] => none
  | (other, content) :: rest => if other = place then some content else get? rest place

def isBelow : Place → Place → Bool
  | _ :: _, [] => true
  | a :: rest, b :: place => a == b && isBelow rest place
  | [], _ => false

def isDirectory (tree : FileTree) (place : Place) : Bool :=
  place.isEmpty || tree.any fun file => isBelow file.1 place

/-- Go on from a directory along the parts of a path; the way may end at a place
where nothing is yet. -/
def follow (tree : FileTree) (start : Place) : List String → Option Place
  | [] => some start
  | part :: rest =>
    if !tree.isDirectory start then none
    else if part = ".." then follow tree start.dropLast rest
    else follow tree (start ++ [part]) rest

/-- Where a path begins. -/
def origin (cwd : Place) (p : Path) : Place := if p.root = "" then cwd else []

/-- The place of an existing file or directory. -/
def locate (tree : FileTree) (cwd : Place) (p : Path) : Option Place :=
  match tree.follow (origin cwd p) p.parts with
  | none => none
  | some place =>
    if tree.isDirectory place || (tree.get? place).isSome then some place else none

def holds (tree : FileTree) (cwd : Place) (p : Path) : Bool := (tree.locate cwd p).isSome

def put (tree : FileTree) (place : Place) (content : Content) : FileTree :=
  match tree with
  | [] => [(place, content)]
  | (other, old) :: rest =>
    if other = place then (other, content) :: rest else (other, old) :: put rest place content

/-- The place that a path leads to when directories are made on the way; two dots
go up, and none of the directories may be a file. -/
def reach (tree : FileTree) (start : Place) : List String → Option Place
  | [] => some start
  | part :: rest =>
    if (tree.get? start).isSome then none
    else if part = ".." then reach tree start.dropLast rest
    else reach tree (start ++ [part]) rest

/-- The place of the directory at a path, which is made if it is missing. -/
def makeDirectory (tree : FileTree) (cwd : Place) (p : Path) : Except Failure Place :=
  match tree.reach (origin cwd p) p.parts with
  | none => .error (.notDirectory p.text)
  | some place => if (tree.get? place).isSome then .error (.fileExists p.text) else .ok place

/-- The place where the file of a path is or can be; the directories that lead to it
are made. -/
def placeFor (tree : FileTree) (cwd : Place) (p : Path) : Except Failure Place := do
  let directory ← tree.makeDirectory cwd p.parent
  let place := directory ++ [p.name]
  if p.name = "" || p.name = ".." || tree.isDirectory place then .error (.isDirectory p.text)
  else return place

def write (tree : FileTree) (cwd : Place) (p : Path) (text : String) :
    Except Failure FileTree := do
  return tree.put (← tree.placeFor cwd p) (.text text)

def append (tree : FileTree) (cwd : Place) (p : Path) (text : String) :
    Except Failure FileTree := do
  let place ← tree.placeFor cwd p
  return tree.put place (((tree.get? place).getD (.text "")).append text)

def readAt (tree : FileTree) (place : Place) (p : Path) : Except Failure String :=
  match tree.get? place with
  | some content => content.read
  | none => .error (.isDirectory p.text)

end FileTree

end CqlWorkload
