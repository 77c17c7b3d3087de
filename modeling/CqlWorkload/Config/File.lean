import CqlWorkload.Config.Document
import CqlWorkload.FileTree

/-!
# Configuration files

A configuration is loaded from a file of a tree.
-/

namespace CqlWorkload.Config

def load (tree : FileTree) (cwd : Place) (p : Path) (reader : Yaml.Loader := Yaml.read) :
    Except Failure Config :=
  match tree.locate cwd p with
  | none => .error (.noConfigurationFile p.text)
  | some place =>
    match tree.readAt place p with
    | .error failure => .error failure
    | .ok text => ofFileText p.text text reader

end CqlWorkload.Config
