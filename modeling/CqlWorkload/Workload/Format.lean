import CqlWorkload.Json.Writer
import CqlWorkload.Workload.Document
import CqlWorkload.Yaml.Writer

/-!
# Formats of workloads

A workload is written as YAML or as JSON.  The ending of the name of its file tells
which.
-/

namespace CqlWorkload

inductive Format
  | yaml
  | json
  deriving DecidableEq

namespace Format

def text : Format → String
  | .yaml => "yaml"
  | .json => "json"

def all : List Format := [.yaml, .json]

def ofText? (s : String) : Option Format := all.find? (·.text == s)

/-- The ending of a file name. -/
def suffix (f : Format) : String := "." ++ f.text

end Format

def Workload.text (w : Workload) : Format → String
  | .yaml => Yaml.write w.toValue
  | .json => Json.write Json.workloadStyle w.toValue ++ "\n"

end CqlWorkload
