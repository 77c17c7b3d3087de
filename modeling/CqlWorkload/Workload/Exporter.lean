import CqlWorkload.Transform.Catalog
import CqlWorkload.Workload.Document

/-!
# Exporting workloads

An exporter has a transformed schema and a configuration.  Each time it is asked
for its workload it compiles afresh, so all of them are the same.
-/

namespace CqlWorkload

structure Exporter where
  schema : Schema
  config : Config

namespace Exporter

/-- The exporter of a schema that some transformers are applied to first. -/
def ofTransformers (schema : Schema) (config : Config) (transformers : List Transformer) :
    Except Failure Exporter × Log :=
  match Transformer.applyAll transformers schema with
  | (found, log) => ((⟨·, config⟩) <$> found, log)

@[simp] theorem ofTransformers_nil (schema : Schema) (config : Config) :
    (ofTransformers schema config []).1 = .ok ⟨schema, config⟩ := rfl

/-- The exporter of a schema with the transformers that the configuration names. -/
def create (schema : Schema) (config : Config) (m : Matcher := .standard) :
    Except Failure Exporter × Log :=
  match Catalog.builtIn.getAll config.transformers m with
  | .error failure => (.error failure, [])
  | .ok transformers => ofTransformers schema config transformers

def workload (e : Exporter) (m : Matcher := .standard) : Except Failure Workload × Log :=
  Workload.generate e.schema e.config m

end Exporter

/-- Compile a schema with the transformers that the configuration names. -/
def Workload.compile (schema : Schema) (config : Config) (m : Matcher := .standard) :
    Except Failure Workload × Log :=
  match Exporter.create schema config m with
  | (.error failure, log) => (.error failure, log)
  | (.ok exporter, log) =>
    match exporter.workload m with
    | (found, more) => (found, log ++ more)

end CqlWorkload
