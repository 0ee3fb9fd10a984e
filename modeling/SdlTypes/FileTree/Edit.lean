import SdlTypes.FileTree

/-!
# Changing files

The operations that change the files of a run. They follow the names of a written path from the
place where it begins, as `FileTree.follow` does, and fail at the first obstacle; what has been
made until then stays.

`makeDirectory` and `createFile` make one thing in a directory that is there.
`makeDirectories` makes a directory with all those that are missing above it, and `write` writes
a file with the directories that its path lacks.
-/

namespace SdlTypes.FileTree

/-- An operation on a tree. If it fails, the tree is as it was at that moment. -/
abbrev Edit (α : Type) := ExceptT Obstacle (StateM FileTree) α

/-- The place of what the last name stands for, in the directory to which the others lead. -/
def target (t : FileTree) (p : Path) (names : List String) : Except Obstacle Path := do
  checkNames names
  let above ← t.follow p names.dropLast
  match names.getLast? with
  | none => return above
  | some name =>
    if !t.isDirectory above then throw .notDirectory
    else if Path.nameLimit < Path.nameSize name then throw .tooLong
    else return above.step name

/-- Makes a directory. There may be nothing at its place. -/
def makeDirectory (p : Path) (names : List String) : Edit Unit := do
  let place ← liftExcept ((← get).target p names)
  if ((← get).find? place).isSome then throw .occupied
  modify fun t => t.insert place .directory

/-- Writes a file, maybe over another. The names come from a path that is written like this. A
device takes what is written and is as it was. -/
def createFile (p : Path) (names : List String) (written : String) (file : Entry) : Edit Unit := do
  liftExcept (checkNames names)
  if Path.isTooLong written then throw .tooLong
  let place ← liftExcept ((← get).target p names)
  match (← get).find? place with
  | some .directory => throw .directory
  | some .device => pure ()
  | _ => modify fun t => t.insert place file

/-! ## Directories inside one another -/

/-- How many directories can be made on the way to one place. -/
def depthLimit : Nat := 985

/-- Follows names as far as there is something, and gives the place with the names that are left. -/
def followFar (t : FileTree) (p : Path) : List String → Path × List String
  | [] => (p, [])
  | name :: rest =>
    if t.reaches p [name] then t.followFar (p.step name) rest else (p, name :: rest)

/-- Makes directories at a place, each inside the one before. Those on the way may be there, and
so may the last one if `mayExist` says so; `goesOn` tells that the last one is still on the way. -/
def makeChain (mayExist goesOn : Bool) (p : Path) : List String → Edit Unit
  | [] => pure ()
  | name :: rest => do
    if name ≠ "." then
      tryCatch (makeDirectory p [name]) fun obstacle => do
        let t ← get
        let isFine := if goesOn || !rest.isEmpty then obstacle = .occupied
          else mayExist && t.reachesDirectory p [name]
        if !isFine then throw obstacle
    makeChain mayExist goesOn (p.step name) rest

/-- Makes a directory and those that are missing above it. It may be there before only if
`mayExist` says so. The way to it may come into being meanwhile: after `a` has been made, `a/..`
is there. -/
def makeDirectories (mayExist : Bool) (p : Path) (names : List String) : Edit Unit := do
  let (within, beyond) := Path.splitAtLimit 0 names
  let (place, missing) := (← get).followFar p within
  if depthLimit < missing.length + beyond.length then throw .tooDeep
  if missing.isEmpty && beyond.isEmpty && !(mayExist && (← get).isDirectory place) then
    throw .occupied
  makeChain mayExist (!beyond.isEmpty) place missing
  if !beyond.isEmpty then throw .tooLong

/-- Makes the directory to which names lead, unless there is something already. -/
def ensure (p : Path) (names : List String) : Edit Unit := do
  if !names.isEmpty && !(← get).reaches p names then makeDirectories false p names

/-- Writes a text file at a path that is written in a directory, and makes the directories that are
missing on the way to it. -/
def write (directory : Path) (written text : String) : Edit Unit := do
  if written = "" then throw .missing
  let p := Path.start directory written
  let names := Path.names written
  if !names.dropLast.isEmpty then makeDirectories true p names.dropLast
  createFile p names written (.file text)

end SdlTypes.FileTree
