import SdlTypes.FileTree.Edit
import SdlTypes.Text.CaseMap
import SdlTypes.Zip.Content

/-!
# Archives

A schema may be packed into one file. Archives come in two forms, which are told apart by the
endings of their names. The members of a zip archive stay below the place where they are
unpacked, since dots are left out of their paths; a path that ends in a slash is that of a
directory. The paths of a tar archive are followed as they are written, and all its members are
files.

An archive is given by its members or, if it is a zip archive, by its bytes. `FileTree.unpack`
unpacks it, one member after the other, and fails where a member cannot be read or written.
-/

namespace SdlTypes

/-- The forms of archives. -/
inductive ArchiveForm where
  | zip
  | tar
  deriving DecidableEq

namespace ArchiveForm

/-- The form of the archives with a name like this. Case does not matter. -/
def ofName? (name : String) : Option ArchiveForm :=
  let endsIn (ending : String) := Text.endsWith (Text.lower name) ending
  if endsIn ".zip" then some .zip
  else if endsIn ".tar.gz" || endsIn ".tgz" then some .tar
  else none

/-- The most characters of a path in the field that a tar archive has for it. -/
def fieldSize : Nat := 100

/-- The path of a member as the archive keeps it. The character zero ends a path, except if it
does not fit into the field of a tar archive, which holds ASCII characters. -/
def kept (form : ArchiveForm) (written : String) : String :=
  let s := written.toList
  if form = .tar && (fieldSize < s.length || s.any fun c => 127 < c.toNat) then written
  else String.ofList (s.takeWhile (· ≠ '\x00'))

end ArchiveForm

/-- The reasons why an archive cannot be unpacked. -/
inductive ArchiveError where
  | zip (error : Zip.Error)
  /-- A tar archive has no bytes. -/
  | empty
  /-- A tar archive is not packed. -/
  | notPacked
  /-- A tar archive is not given by its members. -/
  | noMembers
  /-- A member cannot be written. -/
  | obstructed (obstacle : Obstacle)
  deriving DecidableEq

/-- The text of an error. -/
def ArchiveError.message : ArchiveError → String
  | .zip e => e.message
  | .empty => "it is empty"
  | .notPacked => "it is not packed"
  | .noMembers => "its members are not known"
  | .obstructed obstacle => obstacle.message

namespace FileTree

/-- A part of the unpacking of an archive. If it fails, the tree is as it was at that moment. -/
abbrev Extraction (α : Type) := ExceptT ArchiveError (StateM FileTree) α

/-- Changes the files. -/
def change {α : Type} (operation : Edit α) : Extraction α :=
  operation.adapt ArchiveError.obstructed

/-- Goes on with what has been read from a zip archive. -/
def checkZip {α : Type} (result : Except Zip.Error α) : Extraction α :=
  liftExcept (result.mapError ArchiveError.zip)

/-- Makes the directories for a member of a zip archive, and the member if it is a directory.
Otherwise the names that are left for a file are returned. -/
def prepare (directory : Path) (name : String) : Edit (Option (List String)) := do
  let names := (Path.names name).filter fun name => name ≠ "." && name ≠ ".."
  ensure directory names.dropLast
  if Text.endsWith name "/" then
    if !(← get).reachesDirectory directory names then makeDirectory directory names
    return none
  return some names

/-- Writes a member of a zip archive. -/
def createMember (directory : Path) (names : List String) (file : Entry) : Edit Unit :=
  createFile directory names (Text.join "/" names) file

/-- Unpacks a member of a zip archive with its text. -/
def unpackZipMember (directory : Path) (name text : String) : Edit Unit := do
  if let some names ← prepare directory name then
    createMember directory names (.file text)

/-- Unpacks a member of a zip archive with some bytes. Its data is found before the file is made,
and unpacked when there is an empty file for it. -/
def extractZipMember (s : ByteArray) (directory : Path) (m : Zip.Member) (limit : Int) :
    Extraction Unit := do
  if let some names ← change (prepare directory m.name) then
    let packed ← checkZip (m.locate s limit)
    change (createMember directory names (.file ""))
    let data ← checkZip packed.unpack
    change (createMember directory names (.ofBytes data))

/-- Unpacks a zip archive with some bytes. -/
def extractZip (s : ByteArray) (directory : Path) : Extraction Unit := do
  let d ← checkZip (Zip.Directory.ofBytes s)
  d.unpacked.forM fun (m, limit) => extractZipMember s directory m limit

/-- Unpacks a member of a tar archive. Slashes at the end of its path do not count, and a path of
slashes only leads nowhere. -/
def unpackTarMember (directory : Path) (written text : String) : Edit Unit := do
  let path := String.ofList (Text.dropEndWhile (· = '/') written.toList)
  if path = "" && written ≠ "" then throw .missing
  let p := Path.start directory path
  let names := (Text.split '/' path).filter (· ≠ "")
  ensure p names.dropLast
  createFile p names path (.file text)

/-- The bytes that packed data of the common kind begins with. -/
def packedMark : List UInt8 := [0x1F, 0x8B]

/-- Refuses a tar archive that is not given by its members. -/
def refuseTar (s : ByteArray) : ArchiveError :=
  if s.isEmpty then .empty
  else if packedMark.isPrefixOf s.toList then .noMembers
  else .notPacked

/-- Unpacks an archive in a directory. -/
def unpack (form : ArchiveForm) (directory : Path) (archive : Entry) : Extraction Unit := do
  match archive, archive.bytes?.getD .empty, form with
  | .archive members, _, .zip =>
    members.forM fun (written, text) =>
      change (unpackZipMember directory (form.kept written) text)
  | .archive members, _, .tar =>
    members.forM fun (written, text) =>
      change (unpackTarMember directory (form.kept written) text)
  | _, s, .zip => extractZip s directory
  | _, s, .tar => throw (refuseTar s)

end FileTree

end SdlTypes
