import SdlTypes.Sdl.Token

/-!
# Readers of tokens

A `Reader` takes the tokens that are left and returns what it read with the tokens behind it,
which are the end of those it was given. A `Part` is a reader that takes at least one token, so
it can be repeated: `untilMark`, `whileMark` and `delimited` come to an end because each item
makes the tokens fewer.
-/

namespace SdlTypes.Sdl

/-- The tokens behind a part of others. -/
abbrev Rest (ts : List Token) := { left : List Token // left <:+ ts }

/-- The rest if nothing is read. -/
def Rest.whole (ts : List Token) : Rest ts :=
  ⟨ts, List.suffix_rfl⟩

/-- The tokens behind a part of those behind another part. -/
def Rest.trans {ts : List Token} (left : Rest ts) (behind : Rest left.val) : Rest ts :=
  ⟨behind.val, behind.property.trans left.property⟩

/-- Reads from the tokens at the front, or fails. -/
def Reader (α : Type) : Type :=
  (ts : List Token) → Option (α × Rest ts)

namespace Reader

variable {α β : Type}

/-- Reads with one reader, and what is left with the next. -/
def andThen (r : Reader α) (f : α → Reader β) : Reader β := fun ts =>
  match r ts with
  | none => none
  | some (a, left) =>
    match f a left.val with
    | none => none
    | some (b, behind) => some (b, left.trans behind)

instance : Monad Reader where
  pure a := fun ts => some (a, .whole ts)
  bind := andThen

/-- Reads nothing. -/
def fail : Reader α := fun _ => none

/-! ## Progress -/

/-- Whether a reader takes at least one token whenever it succeeds. -/
def Progresses (r : Reader α) : Prop :=
  ∀ ⦃ts : List Token⦄ ⦃a : α⦄ ⦃left : Rest ts⦄, r ts = some (a, left) →
    left.val.length < ts.length

theorem eq_of_andThen {r : Reader α} {f : α → Reader β} {ts : List Token} {b : β}
    {left : Rest ts} (h : (r >>= f) ts = some (b, left)) :
    ∃ a middle behind, r ts = some (a, middle) ∧ f a middle.val = some (b, behind) ∧
      left.val = behind.val := by
  simp only [bind, andThen] at h
  split at h
  · simp at h
  · next a middle hr =>
    split at h
    · simp at h
    · next b' behind hf =>
      simp only [Option.some.injEq, Prod.mk.injEq] at h
      obtain ⟨rfl, rfl⟩ := h
      exact ⟨a, middle, behind, hr, hf, rfl⟩

/-- A sequence takes a token if its first part does. -/
theorem Progresses.first {r : Reader α} (h : Progresses r) (f : α → Reader β) :
    Progresses (r >>= f) := fun _ _ _ hrf => by
  obtain ⟨a, middle, behind, hr, -, hl⟩ := eq_of_andThen hrf
  exact hl ▸ Nat.lt_of_le_of_lt behind.property.length_le (h hr)

/-- A sequence takes a token if its second part does. -/
theorem Progresses.second (r : Reader α) {f : α → Reader β} (h : ∀ a, Progresses (f a)) :
    Progresses (r >>= f) := fun _ _ _ hrf => by
  obtain ⟨a, middle, behind, -, hf, hl⟩ := eq_of_andThen hrf
  exact hl ▸ Nat.lt_of_lt_of_le (h a hf) middle.property.length_le

theorem progresses_fail : Progresses (fail : Reader α) := fun _ _ _ h => by
  simp [fail] at h

/-! ## Single tokens -/

/-- Reads the token at the front by a function that may refuse it. -/
def token (f : Token → Option α) : Reader α
  | [] => none
  | t :: rest => (f t).map fun a => (a, ⟨rest, List.suffix_cons t rest⟩)

theorem progresses_token (f : Token → Option α) : Progresses (token f) := fun ts a left h => by
  cases ts with
  | nil => simp [token] at h
  | cons t rest =>
    simp only [token, Option.map_eq_some_iff, Prod.mk.injEq] at h
    obtain ⟨_, _, _, rfl⟩ := h
    exact Nat.lt_succ_self _

/-- Reads the token at the front by a function, unless it refuses it. -/
def optionalToken (f : Token → Option α) : Reader (Option α) := fun ts =>
  match token f ts with
  | some (a, left) => some (some a, left)
  | none => some (none, .whole ts)

/-- A mark, as itself. -/
def isMark (c : Char) (t : Token) : Option Unit :=
  if t = .punct c then some () else none

/-- A name, as its text. -/
def nameOf? : Token → Option String
  | .name n => some n
  | _ => none

/-- Reads a mark. -/
def mark (c : Char) : Reader Unit := token (isMark c)

/-- Reads a mark if it is there. -/
def optionalMark (c : Char) : Reader Bool := do
  return (← optionalToken (isMark c)).isSome

/-- Reads a name. -/
def name : Reader String := token nameOf?

theorem progresses_mark (c : Char) : Progresses (mark c) := progresses_token _

theorem progresses_name : Progresses name := progresses_token _

/-- Whether a token is at the front. -/
def isAt (t : Token) (ts : List Token) : Bool :=
  ts.head? = some t

/-- Reads what begins with a mark, if the mark is there. -/
def ifAt (c : Char) (r : Reader α) (otherwise : α) : Reader α := fun ts =>
  if isAt (.punct c) ts then r ts else some (otherwise, .whole ts)

end Reader

open Reader

/-- A reader of something that has at least one token. -/
structure Part (α : Type) where
  read : Reader α
  progresses : Progresses read

namespace Part

variable {α β : Type}

/-- What a function makes of the part that was read. -/
def map (f : α → β) (p : Part α) : Part β :=
  ⟨do return f (← p.read), p.progresses.first _⟩

/-- One of two parts, the first one if a token is at the front. -/
def choose (t : Token) (p q : Part α) : Part α :=
  ⟨fun ts => if isAt t ts then p.read ts else q.read ts, fun ts a left h => by
    simp only at h
    split at h
    · exact p.progresses h
    · exact q.progresses h⟩

/-! ## Repetition -/

/-- Reads items up to and with a closing mark. -/
def untilMark (close : Char) (item : Part α) (ts : List Token) : Option (List α × Rest ts) :=
  if isAt (.punct close) ts then some ([], ⟨ts.tail, List.tail_suffix ts⟩)
  else
    match _found : item.read ts with
    | none => none
    | some (a, left) =>
      match untilMark close item left.val with
      | none => none
      | some (as, behind) => some (a :: as, left.trans behind)
termination_by ts.length
decreasing_by exact item.progresses _found

/-- Reads items as long as the token at the front is a mark, with which items begin. -/
def whileMark (opening : Char) (item : Part α) (ts : List Token) : Option (List α × Rest ts) :=
  if isAt (.punct opening) ts then
    match _found : item.read ts with
    | none => none
    | some (a, left) =>
      match whileMark opening item left.val with
      | none => none
      | some (as, behind) => some (a :: as, left.trans behind)
  else some ([], .whole ts)
termination_by ts.length
decreasing_by exact item.progresses _found

/-- Reads items until the tokens end. -/
def untilEnd (item : Part α) (ts : List Token) : Option (List α) :=
  if ts.isEmpty then some []
  else
    match _found : item.read ts with
    | none => none
    | some (a, left) => (untilEnd item left.val).map (a :: ·)
termination_by ts.length
decreasing_by exact item.progresses _found

/-- Reads at least one item between two marks. -/
def enclosed (opening closing : Char) (item : Part α) : Reader (List α) := do
  mark opening
  let first ← item.read
  return first :: (← untilMark closing item)

/-- Reads at least one item between two marks, or nothing if the opening mark is not there. -/
def optionalEnclosed (opening closing : Char) (item : Part α) : Reader (List α) :=
  ifAt opening (enclosed opening closing item) []

/-- Reads a mark and an item. -/
def behind (between : Char) (item : Part α) : Part α :=
  ⟨do mark between; item.read, (progresses_mark between).first _⟩

/-- Reads at least one item, with marks between items and maybe one before the first. -/
def delimited (between : Char) (item : Part α) : Reader (List α) := do
  let _ ← optionalMark between
  let first ← item.read
  return first :: (← whileMark between (item.behind between))

end Part

end SdlTypes.Sdl
