/-!
# Type fragments

A type that has been written but may still lose its outermost wrapper. GraphQL types are
nullable unless they are marked: a nullable position is written inside `Maybe` where values are
read, and inside `InputMaybe` where values are given. The wrapper is kept beside the text until
`Fragment.render`, so a mark can take it away without a look at the text.
-/

namespace SdlTypes

/-- The helper types around nullable positions. -/
inductive Wrapper where
  | maybe
  | inputMaybe
  deriving DecidableEq

/-- The name of the helper type. -/
def Wrapper.name : Wrapper → String
  | .maybe => "Maybe"
  | .inputMaybe => "InputMaybe"

/-- The wrapper of nullable positions inside an input object or elsewhere. -/
def Wrapper.forInput (input : Bool) : Wrapper :=
  if input then .inputMaybe else .maybe

/-- The text of a type and the wrapper around it, if there is one. -/
structure Fragment where
  text : String
  wrapper : Option Wrapper
  deriving DecidableEq

namespace Fragment

/-- The type as it is written. -/
def render (f : Fragment) : String :=
  match f.wrapper with
  | none => f.text
  | some w => w.name ++ "<" ++ f.text ++ ">"

/-- Wraps a fragment; a wrapper that is there already becomes part of the text. -/
def wrapped (f : Fragment) (w : Wrapper) : Fragment :=
  ⟨f.render, some w⟩

/-- Takes the outermost wrapper away. -/
def unwrapped (f : Fragment) : Fragment :=
  { f with wrapper := none }

/-- A written type in a nullable position. -/
def nullable (text : String) (input : Bool) : Fragment :=
  ⟨text, some (Wrapper.forInput input)⟩

/-- A list of the fragment, in a nullable position itself. -/
def listOf (element : Fragment) (input : Bool) : Fragment :=
  nullable ("Array<" ++ element.render ++ ">") input

end Fragment

end SdlTypes
