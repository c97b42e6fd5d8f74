import TagTemplate.CommandLine.Command

/-!
# The program

Reads the files that a command may need, runs it on them and does what it says.
-/

namespace TagTemplate.Main

open TagTemplate.CommandLine

/-- All regular files under a path. -/
partial def filesUnder (path : Path) : IO (List (Path × ByteArray)) := do
  let place := (← IO.currentDir) / Path.text path
  if ← place.isDir then
    let mut found := []
    for entry in ← place.readDir do
      found := found ++ (← filesUnder (path ++ [entry.fileName]))
    return found
  if ← place.pathExists then return [(path, ← IO.FS.readBinFile place)]
  return []

/-- The names of the files and directories that a command may read. -/
def sources : Command → List String
  | .render request =>
    request.templates :: (request.content.toList ++ request.extensions.toList)
  | .check _ templates => [templates]
  | .inspect _ templates => [templates]
  | _ => []

def snapshot (command : Command) : IO FileSystem := do
  let directory := Path.components (toString (← IO.currentDir))
  let found ← (sources command).mapM fun name => filesUnder (Path.resolve directory name)
  return { directory, files := found.flatten }

def usage : String :=
  "usage: poptags render NAME [-t DIR] [-c FILE] [-e DIR] [-o FILE] [-v]\n" ++
  "       poptags check NAME... [-t DIR]\n" ++
  "       poptags inspect NAME [-t DIR]\n" ++
  "       poptags --version\n"

def carryOut (o : Outcome) : IO Unit := do
  IO.print o.output
  IO.eprint o.errors
  if o.escaped.isSome then IO.eprintln "The command failed"
  if let some (path, text) := o.written then
    IO.FS.createDirAll (Path.text path.dropLast)
    IO.FS.writeFile (Path.text path) text

end TagTemplate.Main

open TagTemplate in
def main (args : List String) : IO UInt32 := do
  let command := CommandLine.Command.parse args
  match command with
  | .help => IO.print Main.usage
  | .misuse => IO.eprint Main.usage
  | _ => pure ()
  let outcome := command.run (← Main.snapshot command)
  Main.carryOut outcome
  return outcome.exitCode.toUInt32
