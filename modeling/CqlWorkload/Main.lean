import CqlWorkload.CommandLine.Run

/-!
# The program

The files that a command looks at are read into a tree, the command is run on it, and
the files that it changed are written.
-/

namespace CqlWorkload.Program

/-- The name of an absolute place. -/
def nameOf (place : Place) : String := "/" ++ Text.joinWith "/" place

/-- What is at a place: a file, a directory, which holds at least itself, or nothing. -/
def probe (place : Place) : IO FileTree := do
  try
    if ← (← IO.FS.realPath (nameOf place)).isDir then
      return [(place ++ ["."], .text "")]
    else
      let bytes ← IO.FS.readBinFile (nameOf place)
      return [(place, .bytes (bytes.toList.map (·.toNat)))]
  catch _ => return []

/-- What is at the places of a list. -/
def probeAll (places : List Place) : IO FileTree := do
  return (← places.mapM probe).flatten

/-- The places on the way from one place along some parts. -/
def wayFrom (start : Place) : List String → List Place
  | [] => []
  | part :: rest =>
    let next := if part = ".." then start.dropLast else start ++ [part]
    next :: wayFrom next rest

/-- The directories in which a variable file is looked for. -/
def searched : Nat → Place → List Place
  | 0, _ => []
  | count + 1, place => place :: if place.isEmpty then [] else searched count place.dropLast

/-- The variables of the process, in order. -/
def environment : IO Environment := do
  let bytes ← IO.FS.readBinFile "/proc/self/environ"
  let text := (String.fromUTF8? bytes).getD ""
  return (Text.splitAt '\x00' text.toList).filterMap fun entry =>
    if entry.contains '=' then
      some (String.ofList (entry.takeWhile (· != '=')),
        String.ofList ((entry.dropWhile (· != '=')).drop 1))
    else none

/-- Write the files of a tree that are not the same in another one. -/
def commit (before after : FileTree) : IO Unit := do
  for (place, content) in after do
    if before.get? place != some content then
      IO.FS.createDirAll (nameOf place.dropLast)
      match content with
      | .text s => IO.FS.writeFile (nameOf place) s
      | .bytes bs => IO.FS.writeBinFile (nameOf place) ⟨(bs.map (·.toUInt8)).toArray⟩

def report (outcome : Outcome) : IO UInt32 := do
  IO.print outcome.out
  for sentence in outcome.said do
    IO.eprintln sentence
  if let some failure := outcome.crash then IO.eprintln failure.message
  return outcome.exitCode.toUInt32

end CqlWorkload.Program

open CqlWorkload Program in
def main (args : List String) : IO UInt32 := do
  let cwd := (Path.ofText (← IO.currentDir).toString).parts
  let env ← environment
  match Command.ofArguments? args with
  | none => report (.misuse [] Command.usage)
  | some command =>
    let files ← probeAll ((searched EnvFile.reach cwd).map (· ++ [EnvFile.fileName]))
    let here : FileTree := [(cwd ++ ["."], .text "")]
    let settings := match Settings.load (here ++ files) cwd env [] with
      | .ok settings => settings
      | .error _ => .standard
    let ways := (command.paths settings).flatMap fun p =>
      wayFrom (FileTree.origin cwd p) p.parts
    let tree := here ++ files ++ (← probeAll ways.eraseDups)
    let outcome := command.run env tree cwd
    commit tree outcome.tree
    report outcome
