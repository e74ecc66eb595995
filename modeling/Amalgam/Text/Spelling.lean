import Amalgam.Text.CodePoint

/-!
# Texts spelled in characters

Programs are worked on as strings, which have no room for unpaired surrogates.  A text without any
is spelled as it is.  If there are some, texts are spelled in code: a mark and a character of
private use stand for a surrogate, and the mark stands for itself if it is doubled.  Neither of
these characters has a case, is blank, is part of a word or means anything to a directive, so a text
in code is treated as the text would be.
-/

set_option autoImplicit false

namespace Amalgam

namespace CodePoint

/-- The character that stands before a code. -/
def mark : Char := Char.ofNat 0x10FFFF

/-- A code point in code. -/
def code : CodePoint → List Char
  | .char c => if c = mark then [mark, mark] else [c]
  | .surrogate place => [mark, Char.ofNat (0xE000 + place)]

/-- The code point that a character behind a mark stands for. -/
def marked? (c : Char) : Option CodePoint :=
  if c = mark then some (.char mark)
  else if h : 0xE000 ≤ c.toNat ∧ c.toNat < 0xE800 then
    some (.surrogate ⟨c.toNat - 0xE000, by omega⟩)
  else none

/-- The code points of characters in code. -/
def decode : List Char → List CodePoint
  | [] => []
  | [c] => [.char c]
  | c :: d :: rest =>
    match if c = mark then marked? d else none with
    | some point => point :: decode rest
    | none => .char c :: decode (d :: rest)

end CodePoint

namespace Text

/-- A text in code. -/
def code (t : Text) : String := String.ofList (t.points.flatMap CodePoint.code)

/-- The text of a string in code. -/
def ofCode (s : String) : Text := ofPoints (CodePoint.decode s.toList)

end Text

/-- How texts are spelled in strings. -/
inductive Spelling where
  | plain
  | coded
  deriving DecidableEq, Repr

namespace Spelling

/-- The spelling that some texts need. -/
def of (texts : List Text) : Spelling := if texts.all Text.isProper then .plain else .coded

/-- A text as it is spelled. -/
def spell : Spelling → Text → String
  | .plain, t => t.display
  | .coded, t => t.code

/-- The text that is spelled in this way. -/
def read : Spelling → String → Text
  | .plain, s => .proper s
  | .coded, s => .ofCode s

end Spelling

end Amalgam
