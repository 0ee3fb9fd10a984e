import SdlTypes.Run

/-!
# The program

The outer layer of the command line. It looks at the files that the arguments name, runs the
command on what it has seen, prints the lines of the run and writes the file that the run
writes. Tar archives have to be unpacked beforehand.
-/

namespace SdlTypes.Main

/-- The tree with what is on the disk at a place. -/
def observe (t : FileTree) (p : Path) : IO FileTree := do
  let place := (← IO.currentDir) / Text.plain p.text
  if ← place.isDir then return t.withDirectory p
  if !(← place.pathExists) then return t
  if (← place.metadata).type == .other then return t.insert p .device
  return t.insert p (.ofBytes (← IO.FS.readBinFile place))

/-- The tree with all places that a written path leads through. -/
def observeWay (directory : Path) (t : FileTree) (written : String) : IO FileTree := do
  let mut tree := t
  let mut place := Path.start directory written
  for name in Path.names written do
    place := place.step name
    tree ← observe tree place
  return tree

/-- The tree with all that is below a place. -/
partial def observeBelow (t : FileTree) (p : Path) : IO FileTree := do
  let place := (← IO.currentDir) / Text.plain p.text
  if !(← place.isDir) then return t
  let mut tree := t
  for entry in ← place.readDir do
    let name := Text.marked entry.fileName
    if isSchemaName name || (← entry.path.isDir) then
      tree ← observeBelow (← observe tree (p ++ [name])) (p ++ [name])
  return tree

/-- The files that the arguments of the command name. -/
def filesOf (directory : Path) (a : Arguments) : IO FileTree := do
  let mut tree := FileTree.mk []
  for place in directory.ancestors ++ [directory] do
    tree ← observe tree place
  for p in [Parameter.schema, .output, .config, .templates] do
    tree ← observeWay directory tree ((a.value? p).getD "")
  match a.value? .schema with
  | some written => observeBelow tree (Path.resolve directory written)
  | none => return tree

/-- Writes the text of a run. -/
def writeOutput (output : Path) (text : String) : IO Unit := do
  let root ← IO.currentDir
  IO.FS.createDirAll (root / Text.plain (Path.text output.dropLast))
  IO.FS.writeFile (root / Text.plain output.text) (Text.plain text)

/-- What is said about a command line that makes no sense. -/
def usage : String :=
  "Usage: generate --schema PATH --output FILE [--config FILE] [--header TEXT] " ++
    "[--exclude-prefix TEXT] [--template-dir DIRECTORY] [--verbose]"

/-- Ends a run as its outcome says; `written` is the text that it has left at the output path,
if it came so far. -/
def finish (output : Path) (written : Option String) (outcome : Outcome) (printed : List String) :
    IO UInt32 := do
  match written with
  | some text => writeOutput output text
  | none => pure ()
  printed.forM fun line => IO.println (Text.plain line)
  match outcome with
  | .usage => IO.eprintln usage
  | .failed e => IO.eprintln (Text.plain ("Error: " ++ e.message))
  | .done _ => pure ()
  return outcome.exitCode.toUInt32

/-- Runs a command line on the disk. -/
def run (arguments : List String) : IO UInt32 := do
  let arguments := arguments.map Text.marked
  let directory := Path.resolve [] (Text.marked (← IO.currentDir).toString)
  let given := (CommandLine.arguments? arguments).getD ⟨[], false⟩
  let files ← filesOf directory given
  -- no file has an empty name
  let surroundings : Surroundings := ⟨directory, directory ++ [""]⟩
  let (outcome, s) := Outcome.ofArguments surroundings files arguments
  let output := Path.resolve directory ((given.value? .output).getD "")
  let written := match s.files.find? output with
    | some (.file text) => if files.find? output = some (.file text) then none else some text
    | _ => none
  finish output written outcome s.printed

end SdlTypes.Main

/-- The program. -/
def main (arguments : List String) : IO UInt32 :=
  SdlTypes.Main.run arguments
