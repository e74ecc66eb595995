import Amalgam.Source.Language
import Amalgam.Source.Program
import Amalgam.Unit.Expansion
import Amalgam.Text.Spelling

/-!
# Bundles

All sources of a language become one file: the secondary sources in the order in which they were
given, then the entry.  Each starts with a line directive, and all share the headers inlined so far.
Headers stand only where they are included.  If there is no source at all, the files are put one
after another.
-/

set_option autoImplicit false

namespace Amalgam

/-- What is put out for one source. -/
structure Chunk where
  file : TextFile
  rows : List Row
  /-- The headers inlined up to the end of the chunk. -/
  inlined : List String
  deriving DecidableEq, Repr

/-- One file made of many. -/
inductive Bundle where
  /-- No source was found; the files as they are. -/
  | verbatim (files : List TextFile)
  /-- The chunks of the sources, the entry last. -/
  | unit (sources : Sources) (chunks : List Chunk)
  deriving DecidableEq, Repr

/-- The chunks of files expanded one after another. -/
def expandFiles (index : Index) : Context → List TextFile → List Chunk
  | _, [] => []
  | ctx, file :: files =>
    let e := expand index ctx file.name file.content
    ⟨file, e.rows, e.inlined⟩ :: expandFiles index { ctx with inlined := e.inlined } files

/-- The bundle of files in a language. -/
def Bundle.ofFiles (tag : String) (files : List TextFile) (limit : Int) : Bundle :=
  match Sources.ofFiles tag files with
  | none => .verbatim files
  | some sources =>
    let order := (sources.secondary ++ [sources.entry]).map (·.file)
    .unit sources (expandFiles (Index.ofFiles files) (Context.fresh limit) order)

namespace Chunk

/-- The rows of a chunk: its file's line one is named, and its last line is complete. -/
def lines (c : Chunk) : List Row := .lineIs 1 c.file.name :: Row.complete c.rows

end Chunk

namespace Bundle

/-- The rows of chunks, two empty lines apart, and the empty line that ends the text. -/
def chunkRows : List Chunk → List Row
  | [] => [.gap]
  | [c] => c.lines ++ [.gap]
  | c :: c' :: cs => c.lines ++ .gap :: .gap :: chunkRows (c' :: cs)

/-- A file under a heading. -/
def verbatimText (file : TextFile) : List Char :=
  "// --- ".toList ++ file.name.toList ++ " ---\n".toList ++ file.content.toList ++ ['\n']

/-- The text of a bundle. -/
def content : Bundle → String
  | .verbatim files => String.ofList (joinLines (files.map verbatimText))
  | .unit _ chunks => String.ofList (Row.text (chunkRows chunks))

/-- The chunks of a bundle; files that are put out as they are have none. -/
def chunks : Bundle → List Chunk
  | .verbatim _ => []
  | .unit _ chunks => chunks

/-- The rows of a bundle; files that are put out as they are have none. -/
def rows : Bundle → List Row
  | .verbatim _ => []
  | .unit _ chunks => chunkRows chunks

/-- The headers that a bundle inlines, in order. -/
def inlined : Bundle → List String
  | .verbatim _ => []
  | .unit _ chunks => (chunks.getLast?.map (·.inlined)).getD []

/-- The names of files in brackets. -/
def nameList (s : Spelling) (files : List Placed) : String :=
  "[" ++ ", ".intercalate (files.map fun p => (s.read p.file.name).quoted) ++ "]"

/-- What is told about the files of a bundle before they are expanded. -/
def opening (s : Spelling) : Bundle → Notice
  | .verbatim _ => .debug "No source files found, concatenating inputs verbatim"
  | .unit sources _ =>
    ⟨.debug, s.read ("Entry file: " ++ sources.entry.file.name ++ "; secondary sources: " ++
      nameList s sources.secondary)⟩

/-- What is told about rows that are put out. -/
def rowNotices (s : Spelling) (rows : List Row) : List Notice :=
  (Row.notices rows).map fun n => ⟨n.level, s.read n.message.display⟩

/-- What is told about a bundle. -/
def notices (s : Spelling) (b : Bundle) : List Notice :=
  match b with
  | .verbatim _ => [b.opening s]
  | .unit _ chunks =>
    b.opening s :: rowNotices s (chunks.flatMap (·.rows)) ++
    [.debug ("Inlined " ++ toString b.inlined.length ++ " header(s) into " ++
      toString chunks.length ++ " chunk(s)")]

/-- What is told about a bundle until a header has to be inlined inside `levels` others, if one has
to. -/
def noticesBeyond? (levels : Nat) (s : Spelling) (b : Bundle) : Option (List Notice) :=
  (Row.beforeDeeper? levels [] (b.chunks.flatMap (·.rows))).map fun rows =>
    b.opening s :: rowNotices s rows

/-- The bundle as a file. -/
def file (tag : String) (b : Bundle) : TextFile := ⟨Language.bundleName tag, b.content⟩

end Bundle

end Amalgam
