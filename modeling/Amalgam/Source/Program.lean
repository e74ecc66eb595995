import Amalgam.Source.Comment
import Amalgam.Source.Index
import Amalgam.Source.Kind

/-!
# The sources of a program

Of the sources of a language one is the entry and is emitted last: a source named `main` with an
extension of C or C++, else the first that defines a main function, else the first of all.
-/

set_option autoImplicit false

namespace Amalgam

/-- Whether two characters agree up to case; the dotted capital and the dotless small `i` agree with
`i`. -/
def sameLetter (small c : Char) : Bool :=
  c.toLower == small || (small == 'i' && (c == '\u0130' || c == '\u0131'))

/-- Whether a name is `main`, a point and an extension of C or C++, in any case. -/
def isMainName (base : String) : Bool :=
  match dropFinalNewline base.toList with
  | m :: a :: i :: n :: '.' :: rest =>
    sameLetter 'm' m && sameLetter 'a' a && sameLetter 'i' i && sameLetter 'n' n &&
      ["cpp", "cc", "cxx", "c"].contains (String.ofList (rest.map Char.toLower))
  | _ => false

/-- The sources of a program. -/
structure Sources where
  entry : Placed
  /-- All other sources, in the order in which they were given. -/
  secondary : List Placed
  deriving DecidableEq, Repr

/-- The entry among sources. -/
def entryAmong (sources : List Placed) : Option Placed :=
  (sources.find? fun p => isMainName (basename p.file.name)).or
    ((sources.find? fun p => definesMain p.file.content.toList).or sources.head?)

/-- The sources of the language, or nothing if there is none. -/
def Sources.ofFiles (tag : String) (files : List TextFile) : Option Sources :=
  let sources := (place files).filter fun p => isSourceOf tag p.file.name
  (entryAmong sources).map fun entry =>
    ⟨entry, sources.filter fun p => p.position != entry.position⟩

end Amalgam
