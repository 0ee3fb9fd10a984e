import SdlTypes.Module
import SdlTypes.TypeFilter

/-!
# Rendering a schema

From a loaded schema to the text of a file: the arranged document is filtered, the module for
it generated and written, and headers are put above it.
-/

namespace SdlTypes

open Sdl

/-- The content below a header, with an empty line between them. -/
def withHeader (content header : String) : String :=
  header ++ (if Text.endsWith header "\n" then "\n" else "\n\n") ++ content

/-- The content below all headers, the last one on top. -/
def withHeaders (headers : List String) (content : String) : String :=
  headers.foldl withHeader content

/-- How a schema is rendered. -/
structure Rendering where
  options : Options := {}
  filters : List TypeFilter := []
  headers : List String := []

namespace Rendering

/-- The module for a schema. -/
def module (r : Rendering) (l : LoadedSchema) : Except GenerationError Module :=
  Module.generate l.schema r.options (some (l.arranged.filtered r.filters)) none []

/-- The text of the file for a schema. -/
def text (r : Rendering) (l : LoadedSchema) : Except GenerationError String :=
  (fun m => withHeaders r.headers m.text) <$> r.module l

end Rendering

end SdlTypes
