import Amalgam.Source.File

/-!
# Kinds of files

What a file is can be read off the extension of its name, in any case.
-/

set_option autoImplicit false

namespace Amalgam

/-- What a file is. -/
inductive FileKind where
  | header
  | cppSource
  | cSource
  | other
  deriving DecidableEq, Repr

/-- A name without the newline at its end. -/
def dropFinalNewline (cs : List Char) : List Char :=
  if cs.getLast? = some '\n' then cs.dropLast else cs

/-- The part of a name after its last point, in lower case.  A newline at the end is not part of
it. -/
def extension? (name : String) : Option String :=
  let cs := dropFinalNewline name.toList
  if cs.contains '.' then
    some (String.ofList ((cs.reverse.takeWhile (· != '.')).reverse.map Char.toLower))
  else none

namespace FileKind

/-- The kind of the files with an extension. -/
def ofExtension (e : String) : FileKind :=
  if e ∈ ["h", "hh", "hpp", "hxx"] then .header
  else if e ∈ ["cpp", "cc", "cxx"] then .cppSource
  else if e = "c" then .cSource
  else .other

/-- The kind of a file with this name. -/
def ofName (name : String) : FileKind := ((extension? name).map ofExtension).getD .other

/-- The kind of the sources of a language. -/
def sourceOf (tag : String) : FileKind := if tag == "cpp" then .cppSource else .cSource

end FileKind

/-- Whether a file with this name is a source of the language. -/
def isSourceOf (tag name : String) : Bool := FileKind.ofName name == FileKind.sourceOf tag

/-- The language of a set of files: a C++ source decides for C++, else a C source for C.  Headers
alone are C++. -/
def Language.guess (names : List String) : Option String :=
  let kinds := names.map FileKind.ofName
  if kinds.contains .cppSource then some "cpp"
  else if kinds.contains .cSource then some "c"
  else if !kinds.isEmpty && kinds.all (· == .header) then some "cpp"
  else none

end Amalgam
