import Amalgam.Unit.Directive
import Amalgam.Report.Notice

/-!
# Rows

The expanded text of a file is a list of rows, one for each line of output.  A row knows where it
comes from: most stand for a line of some file, the others frame an inlined header or direct the
compiler's line count.  The text, the debug notices and the names of the inlined headers are all
read off the rows.
-/

set_option autoImplicit false

namespace Amalgam

/-- What is put out for one line of a file. -/
inductive Copy where
  /-- The line itself. -/
  | plain (text : Line)
  /-- An include of a name that no file has; the line itself. -/
  | unresolved (text : Line) (name : String)
  /-- In the place of an include of a header that is being expanded. -/
  | recursive (key : String)
  /-- In the place of an include of a header that was inlined before. -/
  | duplicate (key : String)
  deriving DecidableEq, Repr

/-- One line of output. -/
inductive Row where
  /-- For line `number` of the file. -/
  | source (file : String) (number : Nat) (copy : Copy)
  /-- An inlined header starts. -/
  | openBlock (key : String)
  /-- An inlined header ends. -/
  | closeBlock (key : String)
  /-- The next line is this one of the file. -/
  | lineIs (number : Nat) (file : String)
  /-- The file is not expanded: it lies deeper than the limit. -/
  | tooDeep (limit : Int) (file : String)
  /-- An empty line between chunks. -/
  | gap
  deriving DecidableEq, Repr

namespace Copy

/-- The text of the line. -/
def render : Copy → Line
  | .plain text => text
  | .unresolved text _ => text
  | .recursive key => "/* skipped recursive include \"".toList ++ key.toList ++ "\" */".toList
  | .duplicate key => "/* skipped duplicate include \"".toList ++ key.toList ++ "\" */".toList

/-- What is told about line `number` of the file. -/
def notice? (file : String) (number : Nat) : Copy → Option Notice
  | .plain _ => none
  | .unresolved _ name =>
    some (.debug (file ++ ":" ++ toString number ++ ": \"" ++ name ++
      "\" not in file set, kept as is"))
  | .recursive key =>
    some (.debug (file ++ ":" ++ toString number ++ ": circular include of " ++ key ++ " skipped"))
  | .duplicate key =>
    some (.debug (file ++ ":" ++ toString number ++ ": " ++ key ++ " already inlined, skipped"))

end Copy

namespace Row

/-- The text of the row. -/
def render : Row → Line
  | .source _ _ copy => copy.render
  | .openBlock key => "// === begin include ".toList ++ key.toList ++ " ===".toList
  | .closeBlock key => "// === end include ".toList ++ key.toList ++ " ===".toList
  | .lineIs number file => (positionDirective number file).toList
  | .tooDeep _ file => "/* include depth limit exceeded at ".toList ++ file.toList ++ " */".toList
  | .gap => []

/-- What is told about the row. -/
def notice? : Row → Option Notice
  | .source file number copy => copy.notice? file number
  | .tooDeep limit file =>
    some (.debug ("Include depth limit (" ++ toString limit ++ ") exceeded at " ++ file))
  | _ => none

/-- The header that starts with the row. -/
def opened? : Row → Option String
  | .openBlock key => some key
  | _ => none

/-- Whether the row is an empty line of a file. -/
def isBlank : Row → Bool
  | .source _ _ (.plain []) => true
  | _ => false

/-- The text of rows. -/
def text (rows : List Row) : List Char := joinLines (rows.map render)

/-- The notices of rows, in order. -/
def notices (rows : List Row) : List Notice := rows.filterMap notice?

/-- The headers that rows inline, in order. -/
def opened (rows : List Row) : List String := rows.filterMap opened?

/-- The blocks that are open after a row, outermost first; `stack` are those that were open before
it. -/
def stackAfter (stack : List String) : Row → List String
  | .openBlock key => stack ++ [key]
  | .closeBlock _ => stack.dropLast
  | _ => stack

/-- The blocks that are open after rows. -/
def openBlocks (stack : List String) (rows : List Row) : List String := rows.foldl stackAfter stack

/-- The rows before the first block that lies more than `levels` deep, if there is one. -/
def beforeDeeper? (levels : Nat) : (stack : List String) → List Row → Option (List Row)
  | _, [] => none
  | stack, row :: rows =>
    if levels < (stackAfter stack row).length then some []
    else (beforeDeeper? levels (stackAfter stack row) rows).map (row :: ·)

/-- The rows of a text that is followed by a newline if it does not end in one.  A last row that is
blank stands for the end of a text with a final newline; a single blank row is an empty text and
stays. -/
def complete : List Row → List Row
  | [] => []
  | [row] => [row]
  | row :: last :: rest =>
    if rest.isEmpty && last.isBlank then [row] else row :: complete (last :: rest)

end Row

end Amalgam
