import SdlTypes.Text.Surrogate

/-!
# Names in archives

The names of the members of an archive are bytes. They are in UTF-8 if a flag says so and
otherwise in code page 437, in which each byte is a character.
-/

namespace SdlTypes.Zip

/-- The characters of code page 437 from 128 on. The first 128 are those of ASCII. -/
def codePage : Array Char :=
  ("ÇüéâäàåçêëèïîìÄÅÉæÆôöòûùÿÖÜ¢£¥₧ƒ" ++
    "áíóúñÑªº¿⌐¬½¼¡«»░▒▓│┤╡╢╖╕╣║╗╝╜╛┐" ++
    "└┴┬├─┼╞╟╚╔╩╦╠═╬╧╨╤╥╙╘╒╓╫╪┘┌█▄▌▐▀" ++
    "αßΓπΣσµτΦΘΩδ∞φε∩≡±≥≤⌠⌡÷≈°∙·√ⁿ²■\u00a0").toList.toArray

/-- The character of a byte in code page 437. -/
def charOfByte (b : UInt8) : Char :=
  if b < 128 then Char.ofNat b.toNat else codePage[b.toNat - 128]?.getD ' '

/-- The name that some bytes write, in marked form. -/
def readName? (isUnicode : Bool) (s : ByteArray) : Option String :=
  if isUnicode then (String.fromUTF8? s).map Text.marked
  else some (Text.marked (String.ofList (s.toList.map charOfByte)))

end SdlTypes.Zip
