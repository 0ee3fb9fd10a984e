import SdlTypes.Text.Basic

/-!
# Comments

`Comment.render` writes a description as a documentation comment: on one line if it has one,
otherwise as a block with a star before every line. The two characters that would end the
comment are taken apart wherever they stand next to each other in the text.
-/

namespace SdlTypes

/-- The text with two blanks in front for each level. -/
def indent (level : Nat) (s : String) : String :=
  String.ofList (List.replicate (2 * level) ' ') ++ s

namespace Comment

/-- Puts a backslash between each star and the slash that follows it. -/
def protect : List Char → List Char
  | '*' :: '/' :: rest => '*' :: '\\' :: '/' :: protect rest
  | c :: rest => c :: protect rest
  | [] => []

/-- The line without the blanks at its end. -/
def trimEnd (line : String) : String :=
  String.ofList (Text.dropEndWhile (· = ' ') line.toList)

/-- A text as a comment with the line break that ends it; the empty text has none. -/
def render (level : Nat) (text : String) : String :=
  if text = "" then ""
  else
    match Text.split '\n' (String.ofList (protect text.toList)) with
    | [line] => indent level ("/** " ++ line ++ " */\n")
    | lines =>
      Text.join "\n" (("/**" :: lines.map (" * " ++ ·) ++ [" */\n"]).map fun line =>
        trimEnd (indent level line))

end Comment

end SdlTypes
