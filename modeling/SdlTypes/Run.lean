import SdlTypes.CommandLine
import SdlTypes.FileTree.Archive
import SdlTypes.Options.Reading
import SdlTypes.Rendering
import SdlTypes.SchemaFiles

/-!
# Running the command

A run reads the options, finds the schema, generates the module and writes it. Its state is the
file tree and the lines printed so far; a failure keeps both as they are at that moment. The
output is written at the end, so a run that fails before leaves the tree as it was. A text that
is not plain is found out when the output is already there, and empty; a path that cannot be
printed, at the latest when the output stands. An archive is unpacked in a scratch directory for
as long as the schema is read.

`Run.generate` is the command, `Outcome.ofArguments` runs a whole command line.
-/

namespace SdlTypes

open Sdl

/-- The reasons why a run fails. -/
inductive RunError where
  | config (error : ConfigError)
  | schema (error : SchemaFileError)
  | generation (error : GenerationError)
  /-- An archive cannot be unpacked. -/
  | archive (path : String) (error : ArchiveError)
  /-- The file of options holds no text. -/
  | unreadable (path : String)
  /-- Files cannot be written at a path. -/
  | obstructed (path : String) (obstacle : Obstacle)
  /-- The text for the output path has surrogates, which no file can hold. -/
  | notPlain (path : String)
  /-- A line has surrogates, which cannot be printed. -/
  | unprintable (line : String)
  deriving DecidableEq

/-- The text of an error. -/
def RunError.message : RunError → String
  | .config e => e.message
  | .schema e => e.message
  | .generation e => e.message
  | .archive path e => "Archive " ++ path ++ " cannot be unpacked: " ++ e.message
  | .unreadable path => "Config file " ++ path ++ " holds no text"
  | .obstructed path obstacle => path ++ ": " ++ obstacle.message
  | .notPlain path => "The text for " ++ path ++ " cannot be encoded"
  | .unprintable line => "A line cannot be printed: " ++ line

/-- Where a command runs. -/
structure Surroundings where
  /-- The directory from which paths are followed. -/
  directory : Path
  /-- A place with nothing at it or below it. -/
  scratch : Path

/-- What a run changes. -/
structure RunState where
  files : FileTree
  /-- The printed lines, the first one first. -/
  printed : List String := []

/-- A step of a run. -/
abbrev Run (α : Type) := ExceptT RunError (StateM RunState) α

namespace Run

variable {α : Type}

/-! ## Steps -/

/-- Prints a line, if it can be printed. -/
def say (line : String) : Run Unit := do
  if !Text.isPlain line then throw (.unprintable line)
  modify fun s => { s with printed := s.printed ++ [line] }

/-- Prints a line if there is much to be told. -/
def tell (verbose : Bool) (line : String) : Run Unit :=
  if verbose then say line else pure ()

/-- Changes the files. -/
def change (f : FileTree → FileTree) : StateM RunState Unit :=
  modify fun s => { s with files := f s.files }

/-- Carries out an operation on the files. -/
def edit {ε : Type} (failure : ε → RunError) (operation : ExceptT ε (StateM FileTree) α) :
    Run α :=
  ExceptT.mk fun s =>
    let (result, files) := operation.run.run s.files
    (result.mapError failure, { s with files })

/-- Goes on with the result of a computation, or fails as it does. -/
def check {ε : Type} (failure : ε → RunError) (result : Except ε α) : Run α :=
  ExceptT.mk (pure (result.mapError failure))

/-- Reads the options from the file at a written path; there need not be one. -/
def readOptions (directory : Path) : Option String → Run Options
  | none => pure {}
  | some written => do
    let shown := Path.tidied written
    let files := (← get).files
    match (files.locate directory written).toOption >>= files.find? >>= FileTree.readText? with
    | some text => check .config (Options.ofFileText shown text)
    | none => throw (.unreadable shown)

/-! ## Archives -/

/-- Runs a step with a new directory at a place, which is there for as long as the step runs. -/
def withDirectory (place : Path) (step : Run α) : Run α :=
  ExceptT.mk do
    change fun t => t.insert place .directory
    let result ← step.run
    change fun t => t.removeBelow place
    return result

/-- Runs a step on the place where the schema is: an archive is unpacked for it. -/
def withSource (scratch path : Path) (step : Path → Run α) : Run α := do
  match ArchiveForm.ofName? path.name, ((← get).files.find? path).filter Entry.isRegular with
  | none, _ | _, none => step path
  | some form, some entry =>
    withDirectory scratch do
      edit (.archive path.text) (FileTree.unpack form scratch entry)
      say ("Extracted archive " ++ path.name)
      step scratch

/-! ## The command -/

/-- Reads the schema at a place. -/
def readSchema (source : Path) : Run LoadedSchema := do
  let files := (← get).files
  check .schema (LoadedSchema.ofFiles files (some source) source.text)

/-- Writes the output at a path that is written in a directory. If its text is not plain, an empty
file is left there. -/
def write (directory : Path) (written text : String) : Run Unit := do
  let kept := if Text.isPlain text then text else ""
  edit (.obstructed written) (FileTree.write directory written kept)
  if !Text.isPlain text then throw (.notPlain written)

/-- Looks for a directory of templates. There need not be one, but one has to be able to look. -/
def lookForTemplates (directory : Path) (written : String) : Run Unit := do
  match (← get).files.locate directory written with
  | .error .tooLong => throw (.obstructed written .tooLong)
  | _ => pure ()

/-- Renders a schema and writes the text at a path that is written in a directory. -/
def render (directory : Path) (templates : Option String) (output : String) (r : Rendering)
    (l : LoadedSchema) : Run String := do
  templates.forM (lookForTemplates directory)
  let text ← check .generation (r.text l)
  write directory output text
  return text

/-- How the command line wants the schema to be rendered. Empty texts ask for nothing. -/
def rendering (c : CommandLine) (o : Options) : Rendering where
  options := o
  filters := (c.excluded.filter (· ≠ "")).toList.map fun start => { excludedStart := start }
  headers := (c.header.filter (· ≠ "")).toList

/-- Generates the module that a command line asks for and returns its text. -/
def generate (w : Surroundings) (c : CommandLine) : Run String := do
  let output := Path.resolve w.directory c.output
  let options ← readOptions w.directory c.config
  let loaded ← withSource w.scratch (.resolve w.directory c.schema) fun source => do
    tell c.verbose ("Schema: " ++ source.text)
    tell c.verbose ("Output: " ++ output.text)
    say "Parsing schema..."
    readSchema source
  tell c.verbose ("  Types: " ++ toString loaded.arranged.definitions.length)
  say "Generating types..."
  let text ← render w.directory c.templates output.text (rendering c options) loaded
  tell c.verbose ("  Lines: " ++ toString (Text.lineCount text))
  say ("Done! Generated types in " ++ output.text)
  return text

end Run

/-! ## Command lines -/

/-- What a command line ends with. -/
inductive Outcome where
  /-- The command line makes no sense. -/
  | usage
  /-- The command fails. -/
  | failed (error : RunError)
  /-- The text has been written. -/
  | done (text : String)
  deriving DecidableEq

namespace Outcome

/-- What an error in a command line ends with. -/
def ofError : CommandLineError → Outcome
  | .usage => .usage
  | .badPath path obstacle => .failed (.obstructed path obstacle)

/-- Runs a command line on files. -/
def ofArguments (w : Surroundings) (files : FileTree) (arguments : List String) :
    Outcome × RunState :=
  match CommandLine.ofArguments files w.directory arguments with
  | .error e => (ofError e, { files })
  | .ok c =>
    match (Run.generate w c).run.run { files } with
    | (.ok text, s) => (.done text, s)
    | (.error e, s) => (.failed e, s)

/-- The code that tells the caller how the run ended. -/
def exitCode : Outcome → Nat
  | .done _ => 0
  | .failed _ => 1
  | .usage => 2

end Outcome

end SdlTypes
