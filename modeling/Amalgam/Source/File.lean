/-!
# Files

A named text, and the part of a name after its last separator.
-/

set_option autoImplicit false

namespace Amalgam

/-- A named text. -/
structure TextFile where
  name : String
  content : String
  deriving DecidableEq, Repr

/-- Both kinds of slash separate the parts of a name. -/
def isSeparator (c : Char) : Bool := c == '/' || c == '\\'

/-- The part of a path after its last separator. -/
def basename (path : String) : String :=
  String.ofList (path.toList.reverse.takeWhile fun c => !isSeparator c).reverse

/-- A file together with its position in the list it was given in.  Two files may agree in name and
content; their positions tell them apart. -/
structure Placed where
  position : Nat
  file : TextFile
  deriving DecidableEq, Repr

/-- The files of a list with their positions. -/
def place (files : List TextFile) : List Placed :=
  files.zipIdx.map fun p => ⟨p.2, p.1⟩

end Amalgam
