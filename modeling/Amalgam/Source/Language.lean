import Amalgam.Json.Value
import Amalgam.Text.Blank
import Amalgam.Text.LowerCase
import Amalgam.Text.Spelling

/-!
# Languages

A language is named by a tag.  The tags `c` and `cpp` are the languages that are bundled; any other
tag is possible, and its files are judged as those of C.
-/

set_option autoImplicit false

namespace Amalgam.Language

/-- The spellings of `cpp`. -/
def cppAliases : List String := ["c++", "cpp", "cxx", "cc"]

/-- The tag of a language name: blanks around it and its case do not matter. -/
def tag (name : String) : String :=
  let plain := String.ofList (lowerCase (trimBlanks name.toList))
  if plain ∈ cppAliases then "cpp" else plain

/-- The tag of a language named by a text, with all its surrogates. -/
def tagOfText (name : Text) : Text :=
  let s := Spelling.of [name]
  s.read (tag (s.spell name))

/-- The tag of a language given by any value. -/
def ofValue (v : Value) : String := tag v.displayOrEmpty

/-- Whether files in the language with this tag are bundled. -/
def isBundled (tag : String) : Bool := tag == "c" || tag == "cpp"

/-- The name of the bundle in the language with this tag. -/
def bundleName (tag : String) : String := if tag == "cpp" then "main.cpp" else "main.c"

end Amalgam.Language
