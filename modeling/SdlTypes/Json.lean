/-!
# JSON values

A JSON value as option files hold it. Objects keep their members in the order of the text.
Whole numbers are kept apart from numbers written with a point or an exponent; the latter are
doubles, among them the three that are not finite.

`Json.wholeDouble?` says which doubles may stand where a whole number is expected.
-/

namespace SdlTypes

/-- A JSON value; an object is the list of its members in order, no name twice. -/
inductive Json where
  | null
  | bool (value : Bool)
  | int (value : Int)
  | real (value : Float)
  | string (text : String)
  | array (items : List Json)
  | object (members : List (String × Json))

namespace Json

/-- A double that is a whole number of less than 64 bits, as that number. -/
def wholeDouble? (x : Float) : Option Int :=
  if x.isFinite && x.floor == x && x.abs < 9223372036854775808.0 then some x.toInt64.toInt
  else none

/-- The double nearest to `mantissa * 10 ^ exponent`. -/
def decimal (negative : Bool) (mantissa : Nat) (exponent : Int) : Float :=
  let size : Int := (Nat.toDigits 10 mantissa).length + exponent
  let magnitude :=
    if mantissa = 0 ∨ size < -400 then 0.0
    else if 400 < size then 1.0 / 0.0
    else Float.ofScientific mantissa (exponent < 0) exponent.natAbs
  if negative then -magnitude else magnitude

end Json

end SdlTypes
