/-!
# Ancestors

While a document is folded a stack of frames tells where the fold is: inside which type
definition, and there inside which field, argument or input field. `enter` and `leave` keep the
stack; the questions asked of it are whether the place is inside an input object
(`inInput`), whether it is inside a scope of some kind (`has`), and which definition is the
nearest around it (`nearestDefinition`).
-/

namespace SdlTypes

/-- The kinds of nodes that a frame can stand for. -/
inductive Scope where
  | object
  | interface
  | union
  | enum
  | inputObject
  | field
  | inputValue
  deriving DecidableEq

/-- Whether a frame of this kind stands for a type definition. -/
def Scope.isDefinition : Scope → Bool
  | .field | .inputValue => false
  | _ => true

/-- A node that has been entered and not yet left. -/
structure Frame where
  scope : Scope
  name : String
  deriving DecidableEq

/-- The stack of frames, the innermost first. -/
structure Ancestors where
  frames : List Frame := []
  deriving DecidableEq

namespace Ancestors

/-- The stack with one more frame. -/
def enter (a : Ancestors) (frame : Frame) : Ancestors :=
  ⟨frame :: a.frames⟩

/-- The stack without its innermost frame. -/
def leave (a : Ancestors) : Ancestors :=
  ⟨a.frames.tail⟩

@[simp] theorem leave_enter (a : Ancestors) (frame : Frame) : (a.enter frame).leave = a := rfl

/-- Whether some frame is of the kind. -/
def has (a : Ancestors) (scope : Scope) : Bool :=
  a.frames.any fun frame => frame.scope == scope

/-- Whether the place is inside an input object. -/
def inInput (a : Ancestors) : Bool :=
  a.has .inputObject

/-- The innermost frame that stands for a type definition. -/
def nearestDefinition (a : Ancestors) : Option Frame :=
  a.frames.find? fun frame => frame.scope.isDefinition

end Ancestors

end SdlTypes
