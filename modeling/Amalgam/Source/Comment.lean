import Amalgam.Text.Beginning
import Amalgam.Text.Blank
import Amalgam.Text.WordChar

/-!
# Comments, and the signature of `main`

Comments are taken out in two passes: block comments first, line comments from what is left.
Literals are not known here, so a text in quotes that looks like a comment is taken for one.  A
program has a main function if what remains holds `int`, `main` and an opening parenthesis, with
blanks between them.
-/

set_option autoImplicit false

namespace Amalgam

/-- Whether a block comment is closed somewhere in the text. -/
def closesBlock : List Char → Bool
  | [] => false
  | '*' :: '/' :: _ => true
  | _ :: cs => closesBlock cs

/-- The text without block comments; `inside` tells whether it starts in one.  A comment that is
never closed stays. -/
def dropBlockComments : (inside : Bool) → List Char → List Char
  | _, [] => []
  | true, '*' :: '/' :: cs => dropBlockComments false cs
  | true, _ :: cs => dropBlockComments true cs
  | false, '/' :: '*' :: cs =>
    if closesBlock cs then dropBlockComments true cs else '/' :: '*' :: dropBlockComments false cs
  | false, c :: cs => c :: dropBlockComments false cs

/-- The text without line comments; `inside` tells whether it starts in one. -/
def dropLineComments : (inside : Bool) → List Char → List Char
  | _, [] => []
  | true, '\n' :: cs => '\n' :: dropLineComments false cs
  | true, _ :: cs => dropLineComments true cs
  | false, '/' :: '/' :: cs => dropLineComments true cs
  | false, c :: cs => c :: dropLineComments false cs

/-- The text without comments. -/
def dropComments (code : List Char) : List Char :=
  dropLineComments false (dropBlockComments false code)

/-- Whether the signature of `main` stands at the start of the text. -/
def startsSignature (cs : List Char) : Bool :=
  match dropWord? id ['i', 'n', 't'] cs with
  | none => false
  | some rest =>
    !(rest.takeWhile isBlank).isEmpty &&
      match dropWord? id ['m', 'a', 'i', 'n'] (rest.dropWhile isBlank) with
      | none => false
      | some rest => (rest.dropWhile isBlank).head? == some '('

/-- Whether the signature of `main` stands somewhere in the text; `atWord` tells whether the
character before the text belongs to a word. -/
def holdsSignature : (atWord : Bool) → List Char → Bool
  | _, [] => false
  | atWord, c :: cs => (!atWord && startsSignature (c :: cs)) || holdsSignature (isWordChar c) cs

/-- Whether a text defines a main function. -/
def definesMain (code : List Char) : Bool := holdsSignature false (dropComments code)

end Amalgam
