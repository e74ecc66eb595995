import Amalgam.Text.Beginning
import Amalgam.Text.Lines
import Amalgam.Text.WordChar

/-!
# Preprocessor directives

Three directives matter: a quoted include, which is recognised on its line; `#pragma once`, which is
blanked; and `#line`, which is written.
-/

set_option autoImplicit false

namespace Amalgam

/-! ## Recognising directives -/

/-- Spaces and tabs, the only blanks inside a directive. -/
def isInlineBlank (c : Char) : Bool := c == ' ' || c == '\t'

/-- The rest of a text after a hash and a directive's name. -/
def dropDirective? (fold : Char → Char) (name : List Char) (cs : List Char) : Option (List Char) :=
  match cs.dropWhile isInlineBlank with
  | '#' :: rest => dropWord? fold name (rest.dropWhile isInlineBlank)
  | _ => none

/-- The name that a line includes, if the line is a quoted include. -/
def quotedInclude? (line : Line) : Option String :=
  match dropDirective? id ['i', 'n', 'c', 'l', 'u', 'd', 'e'] line with
  | none => none
  | some rest =>
    match rest.dropWhile isInlineBlank with
    | '"' :: rest =>
      let name := rest.takeWhile (· != '"')
      match name, rest.dropWhile (· != '"') with
      | [], _ => none
      | _, [] => none
      | _, _ => some (String.ofList name)
    | _ => none

/-- Whether a line starts here that is `#pragma once`, in any case and with anything after it. -/
def startsPragmaOnce (cs : List Char) : Bool :=
  match dropDirective? Char.toLower ['p', 'r', 'a', 'g', 'm', 'a'] cs with
  | none => false
  | some rest =>
    !(rest.takeWhile isInlineBlank).isEmpty &&
      match dropWord? Char.toLower ['o', 'n', 'c', 'e'] (rest.dropWhile isInlineBlank) with
      | none => false
      | some rest => endsWord rest

/-- The text with its `#pragma once` lines emptied; `dropping` tells whether it starts inside
one. -/
def blankPragmaLines : (dropping : Bool) → List Char → List Char
  | _, [] => []
  | dropping, c :: cs =>
    if c = '\n' then c :: blankPragmaLines (startsPragmaOnce cs) cs
    else if dropping then blankPragmaLines true cs
    else c :: blankPragmaLines false cs

/-- The text with its `#pragma once` lines emptied.  No newline goes, so lines keep their
numbers. -/
def blankPragmaOnce (code : List Char) : List Char := blankPragmaLines (startsPragmaOnce code) code

/-! ## The line directive -/

/-- The characters of a string literal. -/
def escapeLiteral : List Char → List Char
  | [] => []
  | c :: cs => if c = '\\' || c = '"' then '\\' :: c :: escapeLiteral cs else c :: escapeLiteral cs

/-- A `#line` directive with the line number given as text. -/
def positionDirectiveText (number name : String) : String :=
  String.ofList ("#line ".toList ++ number.toList ++ " \"".toList ++ escapeLiteral name.toList ++
    ['"'])

/-- The directive that makes the next line the one with this number in the named file. -/
def positionDirective (number : Nat) (name : String) : String :=
  positionDirectiveText (toString number) name

end Amalgam
