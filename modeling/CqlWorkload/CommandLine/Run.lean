import CqlWorkload.CommandLine.Arguments
import CqlWorkload.CommandLine.Logging
import CqlWorkload.CommandLine.Target
import CqlWorkload.Config.File
import CqlWorkload.Schema.File
import CqlWorkload.Settings.Reader
import CqlWorkload.Workload.Exporter

/-!
# Running commands

A command is run on a tree of files and yields an outcome: what it prints, what it says
on the way, how it ends, and the tree that it leaves behind.

**Export.** The target is settled first, then the schema and the configuration are
loaded and the workload is compiled; only then the target is written.  Apart from the
log a failed export leaves the tree as it was.
-/

namespace CqlWorkload

/-- How a command ends. -/
structure Outcome where
  exitCode : Nat
  out : String
  /-- The sentences said on the way. -/
  said : List String
  /-- The failure that no sentence reports. -/
  crash : Option Failure
  tree : FileTree

namespace Outcome

/-- The arguments are misused, for a reason. -/
def misuse (tree : FileTree) (reason : String) : Outcome := ⟨2, "", [reason], none, tree⟩

def success (tree : FileTree) (out : String) (said : List String) : Outcome :=
  ⟨0, out, said, none, tree⟩

/-- The end of a command that fails after it has said something. -/
def failure (tree : FileTree) (said : List String) (f : Failure) : Outcome :=
  if f.isReported then ⟨1, "", said ++ ["Error: " ++ f.headline], none, tree⟩
  else ⟨1, "", said, some f, tree⟩

/-- The end of a command that fails where nothing is reported. -/
def crashed (tree : FileTree) (said : List String) (f : Failure) : Outcome :=
  ⟨1, "", said, some f, tree⟩

end Outcome

/-- What is said, what is logged, and what is found on the way to a workload. -/
structure Progress where
  said : List String
  log : Log
  found : Except Failure Workload

/-- Load a schema and a configuration and compile them. -/
def compileFiles (tree : FileTree) (cwd : Place) (schemaFile configFile : Path) : Progress :=
  let schemaSaid := ["Loading schema from " ++ schemaFile.text]
  match Schema.load tree cwd schemaFile with
  | .error f => ⟨schemaSaid, [], .error f⟩
  | .ok schema =>
    let configSaid := schemaSaid ++ ["Loading exporter configuration from " ++ configFile.text]
    match Config.load tree cwd configFile with
    | .error f => ⟨configSaid, [], .error f⟩
    | .ok config =>
      match Workload.compile schema config with
      | (found, log) => ⟨configSaid ++ ["Generating workload..."], log, found⟩

/-- Write a workload to its target. -/
def Export.finish (tree : FileTree) (cwd : Place) (said : List String) (target : Path)
    (text : String) : Outcome :=
  match tree.write cwd target text with
  | .error f => .crashed tree said f
  | .ok tree =>
    .success tree "" (said ++ ["✓ Complete! Workload written to " ++ target.text])

def Export.run (e : Export) (settings : Settings) (tree : FileTree) (cwd : Place) : Outcome :=
  match settings.openLog tree cwd with
  | .error f => .crashed tree [] f
  | .ok (rank, tree) =>
    match Target.resolve tree cwd e.schema e.target e.format with
    | .error f =>
      if f.category = .badTarget then .misuse tree f.message else .crashed tree [] f
    | .ok target =>
      let progress := compileFiles tree cwd e.schema (e.config.getD settings.configFile)
      let tree := settings.record tree cwd rank progress.log
      match progress.found with
      | .error f => .failure tree progress.said f
      | .ok workload => finish tree cwd progress.said target (workload.text e.format)

/-- Print a schema as it is saved. -/
def Schema.showFile (schema : Path) (settings : Settings) (tree : FileTree) (cwd : Place) : Outcome :=
  match settings.openLog tree cwd with
  | .error f => .crashed tree [] f
  | .ok (_, tree) =>
    match Schema.load tree cwd schema with
    | .error f => .failure tree [] f
    | .ok schema => .success tree (schema.fileText ++ "\n") []

namespace Command

/-- How the commands are called. -/
def usage : String :=
  "export SCHEMA [TARGET] [--config FILE] [--format yaml|json]\nshow-model SCHEMA"

/-- The paths that a command looks at, the file of its log among them. -/
def paths (command : Command) (settings : Settings) : List Path :=
  settings.logFile.toList ++
    match command with
    | .help => []
    | .showModel schema => [schema]
    | .generate e =>
      [e.schema, e.config.getD settings.configFile] ++
        match Target.choose e.schema e.target e.format with
        | .ok target => [target]
        | .error _ => []

def run (command : Command) (env : Environment) (tree : FileTree) (cwd : Place) : Outcome :=
  match command with
  | .help => .success tree (usage ++ "\n") []
  | .generate e =>
    match Settings.load tree cwd env [] with
    | .error f => .crashed tree [] f
    | .ok settings => e.run settings tree cwd
  | .showModel schema =>
    match Settings.load tree cwd env [] with
    | .error f => .crashed tree [] f
    | .ok settings => Schema.showFile schema settings tree cwd

def runArguments (args : List String) (env : Environment) (tree : FileTree) (cwd : Place) :
    Outcome :=
  match ofArguments? args with
  | none => .misuse tree usage
  | some command => command.run env tree cwd

end Command

end CqlWorkload
