import Amalgam.Proofs.Reading

/-!
# Line attribution

A reader of the text of a bundle counts lines and obeys the line directives.

* `Row.Legible` — the text of a row is one line, and it moves this reader as the row moves a reader
  of rows.
* `bundle_attributes_lines` — each line of the text that stands for a line of a file is attributed
  to that line of that file.
-/

set_option autoImplicit false

namespace Amalgam

/-! ## A reader of text -/

/-- The position of the line after a line: a line directive sets it, and any other line counts. -/
def Position.after (position : Position) (line : Line) : Position :=
  (readPosition? line).getD ⟨position.file, position.line + 1⟩

/-- The positions that a reader gives to lines, the first of which is at `start`. -/
def positionsFrom (start : Position) : List Line → List Position
  | [] => []
  | line :: lines => start :: positionsFrom (start.after line) lines

theorem getElem?_positionsFrom (start : Position) (done : List Line) (line : Line)
    (rest : List Line) :
    (positionsFrom start (done ++ line :: rest))[done.length]? =
      some (done.foldl Position.after start) := by
  induction done generalizing start with
  | nil => rfl
  | cons first done ih => exact ih (start.after first)

/-! ## Legible rows -/

/-- A line that stays one line and is no line directive. -/
structure PlainLine (line : Line) : Prop where
  no_newline : '\n' ∉ line
  no_directive : ¬ ['#', 'l', 'i', 'n', 'e', ' '] <+: line

theorem PlainLine.nil : PlainLine [] := ⟨by simp, by simp⟩

theorem PlainLine.blankPragmaLine {line : Line} (h : PlainLine line) :
    PlainLine (blankPragmaLine line) := by
  unfold Amalgam.blankPragmaLine
  split
  · exact .nil
  · exact h

/-- A comment that names a file is a plain line. -/
theorem PlainLine.comment {first : Char} {opening closing name : List Char} (hfirst : first ≠ '#')
    (hopening : '\n' ∉ first :: opening) (hclosing : '\n' ∉ closing) (hname : '\n' ∉ name) :
    PlainLine (first :: opening ++ name ++ closing) := by
  constructor
  · simp only [List.mem_append, not_or]
    exact ⟨⟨hopening, hname⟩, hclosing⟩
  · intro h
    exact hfirst (List.cons_prefix_cons.mp h).1.symm

theorem newline_not_mem_toDigits (number : Nat) : '\n' ∉ Nat.toDigits 10 number := by
  intro hmem
  have hdigit := Nat.isDigit_of_mem_toDigits (by decide) (by decide) hmem
  revert hdigit
  decide

theorem count_newline_escapeLiteral (cs : List Char) :
    (escapeLiteral cs).count '\n' = cs.count '\n' := by
  induction cs with
  | nil => rfl
  | cons c cs ih =>
    unfold escapeLiteral
    split <;> simp [List.count_cons, ih]

theorem count_newline_positionDirective (number : Nat) (name : String) :
    (positionDirective number name).toList.count '\n' = name.toList.count '\n' := by
  rw [positionDirective_toList]
  simp [count_newline_escapeLiteral,
    List.count_eq_zero_of_not_mem (newline_not_mem_toDigits number)]

theorem newline_not_mem_positionDirective {name : String} (h : '\n' ∉ name.toList) (number : Nat) :
    '\n' ∉ (positionDirective number name).toList := by
  rw [← List.count_eq_zero, count_newline_positionDirective]
  exact List.count_eq_zero_of_not_mem h

/-- The lines of the text of rows are the texts of the rows, if each of these is one line. -/
theorem Row.splitLines_text {rows : List Row} (hne : rows ≠ [])
    (h : ∀ row ∈ rows, '\n' ∉ row.render) :
    splitLines (Row.text rows) = rows.map Row.render := by
  refine cutAt_joinAt (by simpa using hne) ?_
  intro line hline
  obtain ⟨row, hrow, rfl⟩ := List.mem_map.mp hline
  exact h row hrow

/-- So are the lines of the text of a bundle. -/
theorem Bundle.splitLines_content_of_no_newline {tag : String} {files : List TextFile} {limit : Int}
    (hsource : sourcesOf tag files ≠ [])
    (h : ∀ row ∈ (Bundle.ofFiles tag files limit).rows, '\n' ∉ row.render) :
    splitLines (Bundle.ofFiles tag files limit).content.toList =
      (Bundle.ofFiles tag files limit).rows.map Row.render := by
  cases hb : Bundle.ofFiles tag files limit with
  | verbatim given => exact absurd (Bundle.sourcesOf_eq_nil_of_verbatim hb) hsource
  | unit sources chunks =>
    rw [hb] at h
    rw [Bundle.toList_content_unit]
    exact Row.splitLines_text (Bundle.chunkRows_ne_nil chunks) h

/-- A reader of the text of the row and a reader of the row agree. -/
structure Row.Legible (row : Row) : Prop where
  no_newline : '\n' ∉ row.render
  after_render : ∀ position : Position, position.after row.render = row.positionAfter position

namespace Row.Legible

/-- A plain line that is no directive only counts. -/
theorem of_plainLine {row : Row} (h : PlainLine row.render)
    (hafter : ∀ position : Position, row.positionAfter position =
      ⟨position.file, position.line + 1⟩) :
    row.Legible := by
  refine ⟨h.no_newline, fun position => ?_⟩
  have hread := readPosition?_eq_none h.no_directive
  rw [hafter, Position.after, hread]
  rfl

theorem source {copy : Copy} (h : PlainLine copy.render) (file : String) (number : Nat) :
    Legible (.source file number copy) :=
  of_plainLine h fun _ => rfl

theorem gap : Legible .gap := of_plainLine .nil fun _ => rfl

theorem openBlock {key : String} (h : '\n' ∉ key.toList) : Legible (.openBlock key) :=
  of_plainLine (.comment (by decide) (by decide) (by decide) h) fun _ => rfl

theorem closeBlock {key : String} (h : '\n' ∉ key.toList) : Legible (.closeBlock key) :=
  of_plainLine (.comment (by decide) (by decide) (by decide) h) fun _ => rfl

theorem lineIs {file : String} (h : '\n' ∉ file.toList) (number : Nat) :
    Legible (.lineIs number file) := by
  refine ⟨newline_not_mem_positionDirective h number, fun position => ?_⟩
  show (readPosition? (positionDirective number file).toList).getD _ = _
  rw [readPosition?_positionDirective]
  rfl

theorem complete {rows : List Row} (h : ∀ row ∈ rows, row.Legible) :
    ∀ row ∈ Row.complete rows, row.Legible :=
  fun row hrow => h row (mem_of_mem_complete hrow)

theorem blockRows {origin key : String} {body : List Row} (horigin : '\n' ∉ origin.toList)
    (hkey : '\n' ∉ key.toList) (hbody : ∀ row ∈ body, row.Legible) (number : Nat) :
    ∀ row ∈ blockRows origin number key body, row.Legible := by
  unfold Amalgam.blockRows
  simp only [List.forall_mem_cons, List.forall_mem_append]
  exact ⟨openBlock hkey, lineIs hkey 1, complete hbody, closeBlock hkey,
    lineIs horigin (number + 1), by simp⟩

/-- The text of legible rows moves a reader as the rows do. -/
theorem foldl_after {rows : List Row} (h : ∀ row ∈ rows, row.Legible) (start : Position) :
    (rows.map render).foldl Position.after start = rows.foldl positionAfter start := by
  induction rows generalizing start with
  | nil => rfl
  | cons row rows ih =>
    obtain ⟨hrow, hrows⟩ := List.forall_mem_cons.mp h
    rw [List.map_cons, List.foldl_cons, List.foldl_cons, hrow.after_render, ih hrows]

theorem splitLines_text {rows : List Row} (hne : rows ≠ []) (h : ∀ row ∈ rows, row.Legible) :
    splitLines (text rows) = rows.map render :=
  Row.splitLines_text hne fun row hrow => (h row hrow).no_newline

end Row.Legible

/-! ## Legible expansions -/

/-- The name of the file is one line, and no line of the file is a line directive. -/
structure PlainFile (file : TextFile) : Prop where
  name : '\n' ∉ file.name.toList
  lines : ∀ line ∈ splitLines file.content.toList, ¬ ['#', 'l', 'i', 'n', 'e', ' '] <+: line

namespace PlainFile

variable {file : TextFile}

instance : Decidable (PlainFile file) :=
  decidable_of_iff ('\n' ∉ file.name.toList ∧
    ∀ line ∈ splitLines file.content.toList, ¬ ['#', 'l', 'i', 'n', 'e', ' '] <+: line)
    ⟨fun h => ⟨h.1, h.2⟩, fun h => ⟨h.name, h.lines⟩⟩

theorem plainLine (h : PlainFile file) : ∀ line ∈ splitLines file.content.toList, PlainLine line :=
  fun line hline => ⟨not_mem_of_mem_cutAt hline, h.lines line hline⟩

theorem plainLine_headerLines (h : PlainFile file) : ∀ line ∈ headerLines file, PlainLine line := by
  rw [headerLines_eq]
  intro line hline
  obtain ⟨original, horiginal, rfl⟩ := List.mem_map.mp hline
  exact (h.plainLine original horiginal).blankPragmaLine

end PlainFile

theorem Kept.plainLine {index : Index} {chain inlined : List String} {line : Line} {copy : Copy}
    (h : Kept index chain inlined line copy) (hindex : ∀ file, index.Holds file → PlainFile file)
    (hline : PlainLine line) : PlainLine copy.render := by
  cases h with
  | plain | unresolved => exact hline
  | recursive h =>
    exact .comment (by decide) (by decide) (by decide) (hindex _ (Index.holds_of_included? h)).name
  | duplicate h =>
    exact .comment (by decide) (by decide) (by decide) (hindex _ (Index.holds_of_included? h)).name

theorem Expands.legible {index : Index} {depth : Int} {chain : List String} {origin : String}
    {number : Nat} {lines : List Line} {before after : List String} {rows : List Row}
    (h : Expands index none depth chain origin number lines before rows after)
    (hindex : ∀ file, index.Holds file → PlainFile file) (horigin : '\n' ∉ origin.toList)
    (hlines : ∀ line ∈ lines, PlainLine line) : ∀ row ∈ rows, row.Legible := by
  induction h with
  | done => simp
  | keep hcopy hrest ih =>
    obtain ⟨hline, hlater⟩ := List.forall_mem_cons.mp hlines
    exact List.forall_mem_cons.mpr ⟨.source (hcopy.plainLine hindex hline) _ _, ih horigin hlater⟩
  | cut hlimit => cases hlimit
  | inline hdepth hline hchain hnew hbody hrest ihbody ihrest =>
    have hheader := hindex _ (Index.holds_of_included? hline)
    have hblock := ihbody hheader.name hheader.plainLine_headerLines
    refine List.forall_mem_append.mpr ⟨Row.Legible.blockRows horigin hheader.name hblock _, ?_⟩
    exact ihrest horigin (List.forall_mem_cons.mp hlines).2

theorem ExpandsAll.legible {index : Index} {files : List TextFile} {before : List String}
    {chunks : List Chunk} (h : ExpandsAll index none files before chunks)
    (hindex : ∀ file, index.Holds file → PlainFile file) (hfiles : ∀ file ∈ files, PlainFile file) :
    ∀ row ∈ Bundle.chunkRows chunks, row.Legible := by
  induction h with
  | nil => simpa [Bundle.chunkRows] using Row.Legible.gap
  | @cons file _ _ after rows chunks hfile hrest ih =>
    obtain ⟨hhere, hlater⟩ := List.forall_mem_cons.mp hfiles
    obtain ⟨n, hrows⟩ := Bundle.chunkRows_cons ⟨file, rows, after⟩ chunks
    have hgaps : ∀ row ∈ List.replicate n Row.gap, row.Legible := fun row hrow => by
      rw [List.eq_of_mem_replicate hrow]
      exact .gap
    have hlines : ∀ row ∈ Chunk.lines ⟨file, rows, after⟩, row.Legible :=
      List.forall_mem_cons.mpr
        ⟨.lineIs hhere.name 1, .complete (hfile.legible hindex hhere.name hhere.plainLine)⟩
    rw [hrows]
    exact List.forall_mem_append.mpr ⟨hlines, List.forall_mem_append.mpr ⟨hgaps, ih hlater⟩⟩

theorem Index.Holds.mem_files {files : List TextFile} {file : TextFile}
    (h : (Index.ofFiles files).Holds file) :
    file ∈ files :=
  exists_mem_place.mp h.mem

/-- **Each line of the text of a bundle that stands for a line of a file is attributed to it**, if
no file lies too deep.  The lines of the text are those of the rows, and the row of line `number` of
`name` stands for that line: of a source outside of all blocks, and inside a block of its header. -/
theorem bundle_attributes_lines (tag : String) (files : List TextFile) (limit : Int)
    (start : Position) (hsource : sourcesOf tag files ≠ [])
    (hfiles : ∀ file ∈ files, PlainFile file)
    (huncut : Row.Uncut (Bundle.ofFiles tag files limit).rows) :
    splitLines (Bundle.ofFiles tag files limit).content.toList =
        (Bundle.ofFiles tag files limit).rows.map Row.render ∧
      ∀ done name number copy rest,
        (Bundle.ofFiles tag files limit).rows = done ++ .source name number copy :: rest →
        (positionsFrom start (splitLines
          (Bundle.ofFiles tag files limit).content.toList))[done.length]? =
            some ⟨name, number⟩ ∧
          ∃ line, LineAt (Index.ofFiles files) (sourcesOf tag files) (Row.openBlocks [] done)
              ⟨name, number⟩ line ∧
            Kept (Index.ofFiles files) (Row.openBlocks [] done) (Row.opened done) line copy := by
  cases hb : Bundle.ofFiles tag files limit with
  | verbatim given => exact absurd (Bundle.sourcesOf_eq_nil_of_verbatim hb) hsource
  | unit sources chunks =>
    obtain ⟨order, horder, hexpands⟩ := Bundle.expandsAll_of_uncut hb huncut
    have hlegible := hexpands.legible (fun file hfile => hfiles file hfile.mem_files)
      fun file hfile => hfiles file (List.mem_filter.mp ((horder file).mp hfile)).1
    have hexplained := hexpands.explained (fun file hfile => (horder file).mp hfile) start
    have hlines : splitLines (Bundle.unit sources chunks).content.toList =
        (Bundle.chunkRows chunks).map Row.render := by
      rw [Bundle.toList_content_unit]
      exact Row.Legible.splitLines_text (Bundle.chunkRows_ne_nil chunks) hlegible
    refine ⟨hlines, fun done name number copy rest hrows => ?_⟩
    rw [Bundle.rows] at hrows
    obtain ⟨line, hline, hanswers⟩ :=
      (Row.along_iff_split _ _).mp hexplained done (.source name number copy) rest hrows rfl
    rw [Reading.foldl_next] at hline hanswers
    have hdone : ∀ row ∈ done, row.Legible := fun row hrow =>
      hlegible row (hrows ▸ List.mem_append_left _ hrow)
    have hposition :=
      getElem?_positionsFrom start (done.map Row.render) copy.render (rest.map Row.render)
    rw [List.length_map, Row.Legible.foldl_after hdone] at hposition
    cases hanswers with
    | kept hcopy =>
      refine ⟨?_, line, hline, hcopy⟩
      rw [hlines, hrows, List.map_append, List.map_cons]
      exact hposition

/-- A header that ends in an include of an empty one, which is then included again. -/
def nestedProgram : List TextFile :=
  [⟨"main.c", "#include \"a.h\"\nint x;\n#include \"b.h\""⟩,
    ⟨"a.h", "#pragma once\n#include \"b.h\""⟩, ⟨"b.h", ""⟩]

theorem bundle_attributes_lines_nestedProgram :
    sourcesOf "c" nestedProgram ≠ [] ∧ (∀ file ∈ nestedProgram, PlainFile file) ∧
      Row.Uncut (Bundle.ofFiles "c" nestedProgram 2).rows ∧
      (Bundle.ofFiles "c" nestedProgram 2).rows[12]? =
        some (.source "main.c" 3 (.duplicate "b.h")) ∧
      (positionsFrom ⟨"out.c", 1⟩ (splitLines
        (Bundle.ofFiles "c" nestedProgram 2).content.toList))[12]? = some ⟨"main.c", 3⟩ := by
  have hsource : sourcesOf "c" nestedProgram ≠ [] := by decide
  have hfiles : ∀ file ∈ nestedProgram, PlainFile file := by decide
  have huncut : Row.Uncut (Bundle.ofFiles "c" nestedProgram 2).rows := by decide
  have h := (bundle_attributes_lines "c" nestedProgram 2 ⟨"out.c", 1⟩ hsource hfiles huncut).2
    ((Bundle.ofFiles "c" nestedProgram 2).rows.take 12) "main.c" 3 (.duplicate "b.h")
    ((Bundle.ofFiles "c" nestedProgram 2).rows.drop 13) (by decide)
  have hlength : ((Bundle.ofFiles "c" nestedProgram 2).rows.take 12).length = 12 := by decide
  rw [hlength] at h
  exact ⟨hsource, hfiles, huncut, by decide, h.1⟩

end Amalgam
