import Amalgam.Json.Value

/-!
# Writing JSON

A value on one line.  Quotes, backslashes, control characters and unpaired surrogates are escaped,
all else is written as it is.
-/

set_option autoImplicit false

namespace Amalgam

/-- One character of a JSON string. -/
def jsonChar (c : Char) : List Char :=
  if c = '"' || c = '\\' then ['\\', c]
  else if c.toNat < 0x20 then '\\' :: 'u' :: hexDigits 4 c.toNat
  else [c]

/-- One code point of a JSON string. -/
def jsonPoint : CodePoint → List Char
  | .char c => jsonChar c
  | .surrogate place => CodePoint.escape place

/-- A JSON string. -/
def jsonString (s : Text) : String :=
  String.ofList ('"' :: s.points.flatMap jsonPoint ++ ['"'])

/-- A number that is no whole number. -/
def jsonReal : Double → String
  | .nan => "NaN"
  | .infinite negative => if negative then "-Infinity" else "Infinity"
  | x => x.text

namespace Value

mutual

/-- A value as JSON text. -/
def toJson : Value → String
  | .null => "null"
  | .bool b => if b then "true" else "false"
  | .int i => toString i
  | .real x => jsonReal x
  | .text s => jsonString s
  | .list items => "[" ++ ",".intercalate (jsonItems items) ++ "]"
  | .object fields => "\x7b" ++ ",".intercalate (jsonFields fields) ++ "\x7d"

def jsonItems : List Value → List String
  | [] => []
  | v :: vs => toJson v :: jsonItems vs

def jsonFields : List (Text × Value) → List String
  | [] => []
  | (name, v) :: fs => (jsonString name ++ ":" ++ toJson v) :: jsonFields fs

end

end Value

end Amalgam
