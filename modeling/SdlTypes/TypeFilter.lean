import SdlTypes.Sdl.Document
import SdlTypes.Text.Basic

/-!
# Type filters

A filter says which types a run declares, by how their names begin and end. `accepts` asks it
about a name, `Document.filtered` removes the type definitions that it does not accept from a
document. Only the document gets smaller: the schema keeps all types, so what remains refers to
the same names as before.
-/

namespace SdlTypes

open Sdl

/-- Which types to declare. An empty text puts no condition on the names. -/
structure TypeFilter where
  excludedStart : String := ""
  excludedEnd : String := ""
  includedStart : String := ""
  includedEnd : String := ""
  deriving DecidableEq

/-- Whether types of a name are declared. -/
def TypeFilter.accepts (f : TypeFilter) (name : String) : Bool :=
  !(f.excludedStart ≠ "" && Text.startsWith name f.excludedStart) &&
    !(f.excludedEnd ≠ "" && Text.endsWith name f.excludedEnd) &&
    (f.includedStart = "" || Text.startsWith name f.includedStart) &&
    (f.includedEnd = "" || Text.endsWith name f.includedEnd)

namespace Sdl

/-- Whether a definition passes a filter; those that define no type always do. -/
def Definition.passes (f : TypeFilter) : Definition → Bool
  | .type d => f.accepts d.name
  | _ => true

/-- The document without the type definitions that some filter does not accept. -/
def Document.filtered (filters : List TypeFilter) (d : Document) : Document :=
  filters.foldl (fun d f => ⟨d.definitions.filter (Definition.passes f)⟩) d

end Sdl

end SdlTypes
