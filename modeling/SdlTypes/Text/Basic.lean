/-!
# Text

Operations on text that more than one part of the library needs. Names, types and statements
are `String`s; whatever looks at single characters works on the list `s.toList`, where the
operations below are plain recursions.

`join` puts texts together, `split` takes one apart at a character, `cut?` at the first
occurrence of a mark. `startsWith` and `endsWith` compare code points, and `dropEndWhile`
removes characters from the end.
-/

namespace SdlTypes.Text

/-- The texts one after another with `separator` between neighbours. -/
def join (separator : String) : List String → String
  | [] => ""
  | s :: rest => rest.foldl (fun text t => text ++ separator ++ t) s

@[simp] theorem join_nil (separator : String) : join separator [] = "" := rfl

@[simp] theorem join_singleton (separator s : String) : join separator [s] = s := rfl

theorem join_cons_cons (separator s t : String) (rest : List String) :
    join separator (s :: t :: rest) = s ++ separator ++ join separator (t :: rest) := by
  have fold (u v : String) : rest.foldl (fun text t => text ++ separator ++ t) (u ++ v) =
      u ++ rest.foldl (fun text t => text ++ separator ++ t) v := by
    induction rest generalizing v with
    | nil => rfl
    | cons w rest ih => rw [List.foldl_cons, List.foldl_cons, ← ih]; simp only [String.append_assoc]
  exact fold (s ++ separator) t

/-- The pieces of a text between the occurrences of `separator`; there is always one. -/
def split (separator : Char) (s : String) : List String :=
  (s.toList.splitOn separator).map String.ofList

/-- Whether `s` begins with `start`. -/
def startsWith (s start : String) : Bool :=
  start.toList.isPrefixOf s.toList

/-- Whether `s` ends with `final`. -/
def endsWith (s final : String) : Bool :=
  final.toList.isSuffixOf s.toList

/-- The characters before and after the first place where the nonempty `mark` stands. -/
def cutChars? (mark : List Char) : List Char → Option (List Char × List Char)
  | [] => none
  | c :: rest =>
    if mark.isPrefixOf (c :: rest) then some ([], (c :: rest).drop mark.length)
    else (cutChars? mark rest).map fun (before, after) => (c :: before, after)

/-- The texts before and after the first place where the nonempty `mark` stands. -/
def cut? (mark s : String) : Option (String × String) :=
  (cutChars? mark.toList s.toList).map fun (before, after) =>
    (String.ofList before, String.ofList after)

/-- Whether `mark` stands somewhere in `s`. -/
def contains (s mark : String) : Bool :=
  (cut? mark s).isSome

/-- The characters of `s` up to the last one that fails `p`. -/
def dropEndWhile (p : Char → Bool) (s : List Char) : List Char :=
  (s.reverse.dropWhile p).reverse

end SdlTypes.Text
