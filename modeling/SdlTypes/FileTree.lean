import SdlTypes.FileTree.Path

/-!
# File trees

The files that a run sees and what it leaves behind. A tree gives each place a directory, a
file, an archive or a device; the root is always a directory. `find?` looks at a place, `insert`
and `removeBelow` change the tree there.

`follow` goes along the names of a written path and tells which `Obstacle` it meets. Each step
needs a directory, so `missing/../a` leads nowhere. `locate` does so for a whole written path.
-/

namespace SdlTypes

/-- What there is at a place. -/
inductive Entry where
  | directory
  /-- A text file with its characters. -/
  | file (text : String)
  /-- A file whose bytes are no text. -/
  | binary (bytes : List UInt8)
  /-- An archive: the written paths of its files and their characters. -/
  | archive (members : List (String × String))
  /-- A device that is always empty, whatever is written to it. -/
  | device
  deriving DecidableEq

namespace Entry

/-- Whether an entry is a file that keeps what it holds. -/
def isRegular : Entry → Bool
  | .directory | .device => false
  | .file _ | .binary _ | .archive _ => true

/-- A file with some bytes. -/
def ofBytes (s : ByteArray) : Entry :=
  match String.fromUTF8? s with
  | some text => .file (Text.marked text)
  | none => .binary s.toList

/-- The bytes of a file. Those of a packed archive are not told. -/
def bytes? : Entry → Option ByteArray
  | .file text => some (Text.plain text).toUTF8
  | .binary s => some s.toByteArray
  | .directory | .archive _ | .device => none

end Entry

/-- What can be in the way of an operation on files. -/
inductive Obstacle where
  /-- There is nothing where something is needed. -/
  | missing
  /-- There is something else where a directory is needed. -/
  | notDirectory
  /-- There is a directory where a file is to be written. -/
  | directory
  /-- There is something where a new directory is to be made. -/
  | occupied
  /-- A name or a whole path has too many bytes. -/
  | tooLong
  /-- Too many directories are missing on the way. -/
  | tooDeep
  /-- A name holds a surrogate that stands for no byte. -/
  | surrogate
  /-- A name holds the character zero. -/
  | zero
  deriving DecidableEq

/-- The text of an obstacle. -/
def Obstacle.message : Obstacle → String
  | .missing => "there is nothing"
  | .notDirectory => "a directory is needed on the way"
  | .directory => "there is a directory"
  | .occupied => "there is something already"
  | .tooLong => "the name is too long"
  | .tooDeep => "too many directories are missing on the way"
  | .surrogate => "the name cannot be encoded"
  | .zero => "the name holds the character zero"

/-- Whether an obstacle lies in the names alone, so that they cannot even be looked for. -/
def Obstacle.isOfNames (o : Obstacle) : Bool :=
  o = .surrogate || o = .zero

/-- Places with what there is. -/
structure FileTree where
  entries : List (Path × Entry) := []

namespace FileTree

/-! ## Looking -/

/-- What there is at a place. -/
def find? (t : FileTree) (p : Path) : Option Entry :=
  if p = [] then some .directory else t.entries.lookup p

/-- Whether there is a directory at a place. -/
def isDirectory (t : FileTree) (p : Path) : Bool :=
  t.find? p == some .directory

/-- All that is below a place, with the names that lead to it from there. -/
def below (t : FileTree) (p : Path) : List (Path × Entry) :=
  t.entries.filterMap fun (q, e) =>
    if p.isPrefixOf q ∧ q ≠ p then some (q.drop p.length, e) else none

/-! ## Following paths -/

/-- Where names lead from a place, each from a directory. -/
def follow (t : FileTree) (p : Path) : List String → Except Obstacle Path
  | [] => .ok p
  | name :: rest =>
    if !t.isDirectory p then .error .notDirectory
    else if Path.nameLimit < Path.nameSize name then .error .tooLong
    else if (t.find? (p.step name)).isNone then .error .missing
    else t.follow (p.step name) rest

/-- Refuses names that no path can have, wherever it leads. -/
def checkNames (names : List String) : Except Obstacle Unit :=
  if names.any Path.hasSurrogate then .error .surrogate
  else if names.any fun name => name.toList.contains '\x00' then .error .zero
  else if Path.isTooLong (Text.join "/" names) then .error .tooLong
  else .ok ()

/-- The place to which names lead from a place, where there is something. -/
def reach (t : FileTree) (p : Path) (names : List String) : Except Obstacle Path := do
  checkNames names
  t.follow p names

/-- Whether names lead from a place to something. -/
def reaches (t : FileTree) (p : Path) (names : List String) : Bool :=
  (t.reach p names).isOk

/-- Whether names lead from a place to a directory. -/
def reachesDirectory (t : FileTree) (p : Path) (names : List String) : Bool :=
  (t.reach p names).toOption.any t.isDirectory

/-- Where a written path leads from a directory. -/
def locate (t : FileTree) (directory : Path) (written : String) : Except Obstacle Path := do
  if written = "" then throw .missing
  checkNames (Path.names written)
  if Path.isTooLong written then throw .tooLong
  t.follow (Path.start directory written) (Path.names written)

/-! ## Changing -/

/-- The tree with an entry at a place, instead of what was there. -/
def insert (t : FileTree) (p : Path) (e : Entry) : FileTree :=
  ⟨(p, e) :: t.entries.filter fun x => x.1 ≠ p⟩

theorem lookup_filter_ne {p q : Path} (h : q ≠ p) (l : List (Path × Entry)) :
    (l.filter fun x => x.1 ≠ p).lookup q = l.lookup q := by
  induction l with
  | nil => rfl
  | cons x l ih =>
    obtain ⟨k, e⟩ := x
    by_cases hk : k = p
    · have hqk : (q == k) = false := by simp [hk, h]
      rw [List.filter_cons_of_neg (by simp [hk]), ih, List.lookup_cons, hqk]
    · rw [List.filter_cons_of_pos (by simp [hk]), List.lookup_cons, List.lookup_cons, ih]

theorem find?_insert (t : FileTree) {p q : Path} (e : Entry) (hp : p ≠ []) :
    (t.insert p e).find? q = if q = p then some e else t.find? q := by
  by_cases hq : q = p
  · subst hq
    simp [find?, insert, hp]
  · have hqp : (q == p) = false := by simp [hq]
    simp only [find?, insert, if_neg hq, List.lookup_cons, hqp, lookup_filter_ne hq]

/-- The tree without what is at a place and below it. -/
def removeBelow (t : FileTree) (p : Path) : FileTree :=
  ⟨t.entries.filter fun (q, _) => !p.isPrefixOf q⟩

/-- The tree with a directory at a place, unless there is something. -/
def withDirectory (t : FileTree) (p : Path) : FileTree :=
  if (t.find? p).isSome then t else t.insert p .directory

/-- The tree with an entry at a place and directories on the way to it. -/
def put (t : FileTree) (p : Path) (e : Entry) : FileTree :=
  (p.ancestors.foldl withDirectory t).insert p e

end FileTree

end SdlTypes
