import CqlWorkload.FileTree
import CqlWorkload.Schema.Document

/-!
# Schema files

A schema is loaded from a file of a tree and saved to one; directories that lead
to a saved file are made.
-/

namespace CqlWorkload.Schema

def load (tree : FileTree) (cwd : Place) (p : Path) : Except Failure Schema :=
  match tree.locate cwd p with
  | none => .error (.noSchemaFile p.text)
  | some place =>
    match tree.readAt place p with
    | .error failure => .error failure
    | .ok text => ofFileText p.text text

def save (s : Schema) (tree : FileTree) (cwd : Place) (p : Path) : Except Failure FileTree :=
  tree.write cwd p s.fileText

end CqlWorkload.Schema
