import Amalgam.Text.Quoted

/-!
# Text with unpaired surrogates

JSON can write one half of a surrogate pair.  A text with such a half is no sequence of characters:
it can be kept and it can be shown, but it cannot be encoded.  Standard output takes no such text.
Standard error takes every text and shows the halves as escapes.
-/

set_option autoImplicit false

namespace Amalgam

/-- A character, or one half of a surrogate pair. -/
inductive CodePoint where
  | char (c : Char)
  /-- The half at this place among the surrogates. -/
  | surrogate (place : Fin 0x800)
  deriving DecidableEq, Repr

namespace CodePoint

def char? : CodePoint → Option Char
  | .char c => some c
  | .surrogate _ => none

/-- The code of a surrogate, as an escape. -/
def escape (place : Fin 0x800) : List Char := '\\' :: 'u' :: hexDigits 4 (0xD800 + place)

/-- One code point of a text in the quotes `q`. -/
def quote (q : Char) : CodePoint → List Char
  | .char c => quoteChar q c
  | .surrogate place => escape place

/-- A code point with surrogates as escapes. -/
def display : CodePoint → List Char
  | .char c => [c]
  | .surrogate place => escape place

/-- The characters, if there is no surrogate among the code points. -/
def chars? : List CodePoint → Option (List Char)
  | [] => some []
  | .char c :: ps => (chars? ps).map (c :: ·)
  | .surrogate _ :: _ => none

end CodePoint

/-- Text as JSON can give it. -/
inductive Text where
  | proper (s : String)
  /-- A text with an unpaired surrogate. -/
  | broken (points : List CodePoint) (unpaired : CodePoint.chars? points = none)
  deriving DecidableEq, Repr

instance : Coe String Text := ⟨.proper⟩

namespace Text

/-- The text of some code points. -/
def ofPoints (points : List CodePoint) : Text :=
  match h : CodePoint.chars? points with
  | some cs => .proper (String.ofList cs)
  | none => .broken points h

/-- The code points of a text. -/
def points : Text → List CodePoint
  | .proper s => s.toList.map .char
  | .broken points _ => points

instance : Append Text := ⟨fun a b => ofPoints (a.points ++ b.points)⟩

/-- Whether there is no unpaired surrogate in the text. -/
def isProper : Text → Bool
  | .proper _ => true
  | .broken .. => false

/-- The number of code points. -/
def length : Text → Nat
  | .proper s => s.length
  | .broken points _ => points.length

def isEmpty : Text → Bool
  | .proper s => s.isEmpty
  | .broken .. => false

/-- The text in quotes. -/
def quoted : Text → String
  | .proper s => Amalgam.quoted s
  | .broken points _ =>
    let q := quoteMark (points.filterMap CodePoint.char?)
    String.ofList (q :: points.flatMap (CodePoint.quote q) ++ [q])

/-- The text with surrogates as escapes. -/
def display : Text → String
  | .proper s => s
  | .broken points _ => String.ofList (points.flatMap CodePoint.display)

/-- Where a text has its first unpaired surrogates. -/
structure Unwritable where
  first : Fin 0x800
  offset : Nat
  size : Nat
  deriving DecidableEq, Repr

/-- The text of the error: one surrogate is named by its code, several by their place. -/
def Unwritable.message (e : Unwritable) : String :=
  let what :=
    if e.size ≤ 1 then
      "character '" ++ String.ofList (CodePoint.escape e.first) ++ "' in position " ++
        toString e.offset
    else "characters in position " ++ toString e.offset ++ "-" ++ toString (e.offset + e.size - 1)
  "'utf-8' codec can't encode " ++ what ++ ": surrogates not allowed"

/-- The first run of surrogates among code points that start at `offset`. -/
def firstSurrogates (offset : Nat) : List CodePoint → Unwritable
  | [] => ⟨0, offset, 0⟩
  | .char _ :: ps => firstSurrogates (offset + 1) ps
  | .surrogate place :: ps => ⟨place, offset, (ps.takeWhile fun p => p.char?.isNone).length + 1⟩

/-- What standard output takes of a text: all or nothing. -/
def writable : Text → Except Unwritable String
  | .proper s => .ok s
  | .broken points _ => .error (firstSurrogates 0 points)

end Text

end Amalgam
