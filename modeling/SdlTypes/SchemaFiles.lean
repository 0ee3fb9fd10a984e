import SdlTypes.FileTree
import SdlTypes.Schema.Loading
import SdlTypes.Text.Lines

/-!
# Schema files

A schema may be spread over files. They are found by their names: a path is either such a file
itself or a directory, where those at any depth count. Their documents are put together in the
order of their paths, and the whole has to be a valid schema.

`FileTree.schemaFiles` finds the files, `LoadedSchema.ofFiles` loads them, `LoadedSchema.ofPath`
those at a written path.
-/

namespace SdlTypes

open Sdl

/-- The reasons why a path gives no schema. -/
inductive SchemaFileError where
  /-- There are no schema files at the path, which is given as it is to be shown. -/
  | noFiles (path : String)
  /-- A schema file holds no text. -/
  | unreadable (path : String)
  /-- The names of a path are none. -/
  | badPath (path : String) (obstacle : Obstacle)
  /-- The files hold no schema. -/
  | load (error : LoadError)
  deriving DecidableEq

/-- The text of an error. -/
def SchemaFileError.message : SchemaFileError → String
  | .noFiles path => "No GraphQL schema files found in " ++ path
  | .unreadable path => "Schema file " ++ path ++ " holds no text"
  | .badPath path obstacle => path ++ ": " ++ obstacle.message
  | .load e => e.message

/-- Whether a file of this name holds a part of a schema. -/
def isSchemaName (name : String) : Bool :=
  Text.endsWith name ".graphql" || Text.endsWith name ".graphqls"

namespace FileTree

/-- The text of an entry as it is read. -/
def readText? : Entry → Option String
  | .file text => some (Text.ofFile text)
  | .device => some ""
  | _ => none

/-- The schema files below a place, with their paths from there, in the order of the paths as
they are written, which goes by code points. -/
def schemaFilesBelow (t : FileTree) (p : Path) : List (Path × Entry) :=
  ((t.below p).filter fun (q, e) => e != .directory && isSchemaName q.name).mergeSort
    fun (q, _) (r, _) => !decide (r.points < q.points)

/-- The schema files that a place stands for, with their paths from there. -/
def schemaFiles (t : FileTree) (p : Path) : List (Path × Entry) :=
  match t.find? p with
  | none => []
  | some .directory => t.schemaFilesBelow p
  | some e => if e.isRegular && isSchemaName p.name then [([], e)] else []

end FileTree

/-- The document of a schema file. -/
def documentOfFile (p : Path) (e : Entry) : Except SchemaFileError Document :=
  match FileTree.readText? e with
  | none => .error (.unreadable p.text)
  | some text =>
    match Document.parse? text with
    | some d => .ok d
    | none => .error (.load .malformed)

/-- The schema of all schema files at a place, if there is a place; `shown` is its path as it
is to be shown. -/
def LoadedSchema.ofFiles (t : FileTree) (place : Option Path) (shown : String) :
    Except SchemaFileError LoadedSchema := do
  let files := (place.map t.schemaFiles).getD []
  let documents ← files.mapM fun (p, e) => documentOfFile p e
  if files.isEmpty then throw (.noFiles shown)
  (LoadedSchema.ofDocument (.concat documents)).mapError .load

/-- The schema of all schema files at a path that is written in a directory. -/
def LoadedSchema.ofPath (t : FileTree) (directory : Path) (written : String) :
    Except SchemaFileError LoadedSchema :=
  match t.locate directory written with
  | .ok place => LoadedSchema.ofFiles t (some place) written
  | .error o =>
    if o.isOfNames then .error (.badPath written o) else LoadedSchema.ofFiles t none written

end SdlTypes
