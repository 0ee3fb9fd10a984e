import SdlTypes.Declaration.Comment
import SdlTypes.Sdl.Document

/-!
# Comments of members

The comment above a field, argument, input field or enum value: its description, and a line
that says since when or why it is deprecated.
-/

namespace SdlTypes

open Sdl

namespace Comment

/-- What a deprecated member without a reason is said to be. -/
def defaultDeprecation : String := "Field no longer supported"

/-- The text of the first argument `reason` that is a string. -/
def reason? (use : Directive) : Option String :=
  use.arguments.findSome? fun
    | ("reason", .string text) => some text
    | _ => none

/-- Why a member is deprecated, if it is: what its first directive `deprecated` says. -/
def deprecation? (directives : List Directive) : Option String :=
  (directives.find? fun d => d.name == "deprecated").map fun d =>
    (reason? d).getD defaultDeprecation

/-- The text of a member's comment. -/
def memberText (description : Option String) (directives : List Directive) : String :=
  let text := description.getD ""
  match deprecation? directives with
  | some reason => (if text = "" then "" else text ++ "\n") ++ "@deprecated " ++ reason
  | none => text

/-- The comment of a member, rendered. -/
def ofMember (level : Nat) (description : Option String) (directives : List Directive) :
    String :=
  render level (memberText description directives)

end Comment

end SdlTypes
