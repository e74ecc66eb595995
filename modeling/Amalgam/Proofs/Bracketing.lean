import Amalgam.Proofs.Blocks
import Amalgam.Proofs.Origin
import Amalgam.Proofs.Recursion

/-!
# Marks in the text

A reader of the text of a bundle knows its lines only.  It finds blocks by the lines that mark where
they start and end.

* `Mark.ofLine?` — the mark that a line is; `Bracketed` — the marks of lines are well nested.
* `Row.Marked` — the text of a row is one line, and it marks what the row marks.
* `bundle_brackets_blocks` — the marks in the text of a bundle are well nested, no deeper than the
  limit allows, and exactly the blocks beyond the limit are copied as they are.
-/

set_option autoImplicit false

namespace Amalgam

/-! ## A reader of text -/

/-- What a line says about a block. -/
inductive Mark where
  | opens (key : String)
  | closes (key : String)
  deriving DecidableEq, Repr

/-- What a line that marks a block starts with. -/
def openingWord : Line := "// === begin include ".toList

def closingWord : Line := "// === end include ".toList

/-- What a line starts with that says that a file lies too deep. -/
def depthWord : Line := "/* include depth limit exceeded at ".toList

/-- The key in the rest of a mark; four characters follow it. -/
def markedKey (rest : List Char) : String := String.ofList (rest.take (rest.length - 4))

/-- The mark that a line is. -/
def Mark.ofLine? (line : Line) : Option Mark :=
  match dropWord? id openingWord line with
  | some rest => some (.opens (markedKey rest))
  | none => (dropWord? id closingWord line).map fun rest => .closes (markedKey rest)

/-- Whether a line says that a file lies too deep. -/
def isDepthLine (line : Line) : Bool := depthWord.isPrefixOf line

/-- The blocks that are open after a line, outermost first; `stack` are those that were open before
it. -/
def blocksAfter (stack : List String) (line : Line) : List String :=
  match Mark.ofLine? line with
  | some (.opens key) => stack ++ [key]
  | some (.closes _) => stack.dropLast
  | none => stack

/-- The blocks that are open after lines. -/
def blocksOf (stack : List String) (lines : List Line) : List String :=
  lines.foldl blocksAfter stack

/-- The keys of the lines that open a block, in order. -/
def openedKeys (lines : List Line) : List String :=
  lines.filterMap fun line =>
    match Mark.ofLine? line with
    | some (.opens key) => some key
    | _ => none

/-- Blocks are closed from the inside to the outside, by a line with the same key, and all of them
are. -/
structure Bracketed (lines : List Line) : Prop where
  innermost : ∀ stack done line rest key, lines = done ++ line :: rest →
    Mark.ofLine? line = some (.closes key) → (blocksOf stack done).getLast? = some key
  closed : ∀ stack, blocksOf stack lines = stack

/-- A text that ends in a newline. -/
def withFinalNewline (cs : List Char) : List Char :=
  if cs.getLast? = some '\n' then cs else cs ++ ['\n']

/-- The text of lines that all end in a newline. -/
def terminated (lines : List Line) : List Char := lines.flatMap fun line => line ++ ['\n']

/-- What follows the line that opens a block of `key`, `level` blocks deep.  A block that lies one
level deeper than the limit says so and has the text of its header as it is. -/
def BlockLines (index : Index) (limit : Int) (level : Nat) (key : String) (rest : List Line) :
    Prop :=
  ∃ file body later, index.Holds file ∧ file.name = key ∧
    rest = (positionDirective 1 key).toList :: (body ++ (Row.closeBlock key).render :: later) ∧
    Bracketed body ∧ (body.head?.any isDepthLine = true ↔ level = limit + 1) ∧
    (level = limit + 1 → terminated body =
      withFinalNewline ((Row.tooDeep limit key).render ++ '\n' ::
        blankPragmaOnce file.content.toList))

/-- The blocks that the lines of a text mark. -/
structure BracketsBlocks (index : Index) (limit : Int) (lines : List Line) : Prop where
  bracketed : Bracketed lines
  opened_once : (openedKeys lines).Nodup
  nesting : ∀ done rest, lines = done ++ rest →
    ((blocksOf [] done).length : Int) ≤ max 0 (limit + 1)
  block : ∀ done line rest key, lines = done ++ line :: rest →
    Mark.ofLine? line = some (.opens key) →
    line = (Row.openBlock key).render ∧
      BlockLines index limit ((blocksOf [] done).length + 1) key rest

/-! ## Lines without marks -/

/-- The line starts like no mark. -/
def Unmarked (line : Line) : Prop := ∀ word ∈ [openingWord, closingWord, depthWord], ¬ word <+: line

namespace Unmarked

variable {line : Line}

instance : Decidable (Unmarked line) :=
  inferInstanceAs (Decidable (∀ word ∈ [openingWord, closingWord, depthWord], ¬ word <+: line))

/-- Four characters tell that a line is no mark. -/
theorem of_take (start : Line) (h : line.take 4 = start)
    (hstart : ∀ word ∈ [openingWord, closingWord, depthWord], word.take 4 ≠ start) :
    Unmarked line := by
  have hlength : ∀ word ∈ [openingWord, closingWord, depthWord], 4 ≤ word.length := by decide
  rintro word hword ⟨rest, rfl⟩
  refine hstart word hword ?_
  rw [← h, List.take_append_of_le_length (hlength word hword)]

theorem blankPragmaLine (h : Unmarked line) : Unmarked (blankPragmaLine line) := by
  unfold Amalgam.blankPragmaLine
  split
  · decide
  · exact h

theorem dropWord?_eq_none (h : Unmarked line) {word : Line}
    (hword : word ∈ [openingWord, closingWord, depthWord]) :
    dropWord? id word line = none := by
  cases hdrop : dropWord? id word line with
  | none => rfl
  | some rest => exact absurd ⟨rest, (eq_append_of_dropWord? hdrop).symm⟩ (h word hword)

theorem ofLine?_eq_none (h : Unmarked line) : Mark.ofLine? line = none := by
  have hopening : dropWord? id openingWord line = none := h.dropWord?_eq_none (by simp)
  have hclosing : dropWord? id closingWord line = none := h.dropWord?_eq_none (by simp)
  simp [Mark.ofLine?, hopening, hclosing]

theorem isDepthLine_eq_false (h : Unmarked line) : isDepthLine line = false := by
  have hdepth := h depthWord (by simp)
  rw [← List.isPrefixOf_iff_prefix] at hdepth
  exact Bool.eq_false_iff.mpr hdepth

end Unmarked

/-- The name of the file is one line, and no line of the file is a mark. -/
structure UnmarkedFile (file : TextFile) : Prop where
  name : '\n' ∉ file.name.toList
  lines : ∀ line ∈ splitLines file.content.toList, Unmarked line

instance (file : TextFile) : Decidable (UnmarkedFile file) :=
  decidable_of_iff ('\n' ∉ file.name.toList ∧
    ∀ line ∈ splitLines file.content.toList, Unmarked line)
    ⟨fun h => ⟨h.1, h.2⟩, fun h => ⟨h.name, h.lines⟩⟩

/-! ## Marked rows -/

/-- What a row says about a block. -/
def Row.mark? : Row → Option Mark
  | .openBlock key => some (.opens key)
  | .closeBlock key => some (.closes key)
  | _ => none

/-- A reader of the text of the row learns from it what the row says. -/
structure Row.Marked (row : Row) : Prop where
  no_newline : '\n' ∉ row.render
  ofLine?_render : Mark.ofLine? row.render = row.mark?
  isDepthLine_render : isDepthLine row.render = row.isTooDeep

namespace Row.Marked

theorem of_unmarked {row : Row} (hline : '\n' ∉ row.render) (h : Unmarked row.render)
    (hmark : row.mark? = none) (hdepth : row.isTooDeep = false) : row.Marked :=
  ⟨hline, by rw [h.ofLine?_eq_none, hmark], by rw [h.isDepthLine_eq_false, hdepth]⟩

theorem markedKey_append (name : String) {closing : List Char} (h : closing.length = 4) :
    markedKey (name.toList ++ closing) = name := by
  simp [markedKey, h]

theorem openBlock {key : String} (h : '\n' ∉ key.toList) : Marked (.openBlock key) := by
  have hrender : (Row.openBlock key).render = openingWord ++ (key.toList ++ " ===".toList) :=
    List.append_assoc openingWord key.toList " ===".toList
  refine ⟨(Legible.openBlock h).no_newline, ?_, rfl⟩
  rw [hrender, Mark.ofLine?, dropWord?_append]
  exact congrArg (fun k => some (Mark.opens k)) (markedKey_append key rfl)

theorem closeBlock {key : String} (h : '\n' ∉ key.toList) : Marked (.closeBlock key) := by
  have hrender : (Row.closeBlock key).render = closingWord ++ (key.toList ++ " ===".toList) :=
    List.append_assoc closingWord key.toList " ===".toList
  have hopening : dropWord? id openingWord (Row.closeBlock key).render = none := rfl
  refine ⟨(Legible.closeBlock h).no_newline, ?_, rfl⟩
  rw [Mark.ofLine?, hopening, hrender, dropWord?_append]
  exact congrArg (fun k => some (Mark.closes k)) (markedKey_append key rfl)

theorem tooDeep {file : String} (h : '\n' ∉ file.toList) (limit : Int) :
    Marked (.tooDeep limit file) := by
  have hrender : (Row.tooDeep limit file).render = depthWord ++ (file.toList ++ " */".toList) :=
    List.append_assoc depthWord file.toList " */".toList
  have hplain : PlainLine (Row.tooDeep limit file).render :=
    .comment (by decide) (by decide) (by decide) h
  refine ⟨hplain.no_newline, rfl, ?_⟩
  rw [isDepthLine, hrender, List.isPrefixOf_iff_prefix.mpr (List.prefix_append _ _)]
  rfl

theorem lineIs {file : String} (h : '\n' ∉ file.toList) (number : Nat) :
    Marked (.lineIs number file) := by
  have hrender : (Row.lineIs number file).render = (positionDirective number file).toList := rfl
  refine of_unmarked (Legible.lineIs h number).no_newline ?_ rfl rfl
  refine .of_take ['#', 'l', 'i', 'n'] ?_ (by decide)
  rw [hrender, positionDirective_toList]
  rfl

/-- A comment in the place of an include. -/
theorem source {copy : Copy} (hplain : PlainLine copy.render)
    (hstart : copy.render.take 4 = ['/', '*', ' ', 's']) (file : String) (number : Nat) :
    Marked (.source file number copy) :=
  of_unmarked hplain.no_newline (.of_take _ hstart (by decide)) rfl rfl

theorem eq_openBlock {row : Row} {key : String} (h : row.Marked)
    (hline : Mark.ofLine? row.render = some (.opens key)) : row = .openBlock key := by
  rw [h.ofLine?_render] at hline
  cases row with
  | openBlock => simpa [Row.mark?] using hline
  | source | closeBlock | lineIs | tooDeep | gap => simp [Row.mark?] at hline

theorem eq_closeBlock {row : Row} {key : String} (h : row.Marked)
    (hline : Mark.ofLine? row.render = some (.closes key)) : row = .closeBlock key := by
  rw [h.ofLine?_render] at hline
  cases row with
  | closeBlock => simpa [Row.mark?] using hline
  | source | openBlock | lineIs | tooDeep | gap => simp [Row.mark?] at hline

end Row.Marked

theorem LineOf.unmarked {file : TextFile} {line : Line} (h : LineOf file line)
    (hfile : UnmarkedFile file) :
    '\n' ∉ line ∧ Unmarked line := by
  obtain ⟨original, horiginal, heq⟩ := h
  have hnewline : '\n' ∉ original := not_mem_of_mem_cutAt horiginal
  have hunmarked := hfile.lines original horiginal
  rcases heq with rfl | rfl
  · exact ⟨hnewline, hunmarked⟩
  · refine ⟨?_, hunmarked.blankPragmaLine⟩
    unfold blankPragmaLine
    split
    · simp
    · exact hnewline

/-- **Rows that come from files without marks mark what they say.** -/
theorem Row.From.marked {index : Index} {files : List TextFile} {row : Row}
    (h : Row.From index files row) (hindex : ∀ header, index.Holds header → header ∈ files)
    (hfiles : ∀ file ∈ files, UnmarkedFile file) :
    row.Marked := by
  cases h with
  | kept number hfile hline hcopy =>
    obtain ⟨hnewline, hunmarked⟩ := hline.unmarked (hfiles _ hfile)
    cases hcopy with
    | plain | unresolved => exact .of_unmarked hnewline hunmarked rfl rfl
    | recursive h =>
      have hname := (hfiles _ (hindex _ (Index.holds_of_included? h))).name
      exact .source (.comment (by decide) (by decide) (by decide) hname) rfl _ _
    | duplicate h =>
      have hname := (hfiles _ (hindex _ (Index.holds_of_included? h))).name
      exact .source (.comment (by decide) (by decide) (by decide) hname) rfl _ _
  | copied number hfile hline =>
    obtain ⟨hnewline, hunmarked⟩ := hline.unmarked (hfiles _ hfile)
    exact .of_unmarked hnewline hunmarked rfl rfl
  | openBlock hfile => exact .openBlock (hfiles _ hfile).name
  | closeBlock hfile => exact .closeBlock (hfiles _ hfile).name
  | lineIs number hfile => exact .lineIs (hfiles _ hfile).name number
  | tooDeep limit hfile => exact .tooDeep (hfiles _ hfile).name limit
  | gap => exact .of_unmarked List.not_mem_nil (by decide) rfl rfl

/-! ## The text of marked rows -/

section Marked

variable {rows : List Row}

theorem blocksAfter_render {row : Row} (h : row.Marked) (stack : List String) :
    blocksAfter stack row.render = Row.stackAfter stack row := by
  rw [blocksAfter, h.ofLine?_render]
  cases row <;> rfl

theorem blocksOf_render (h : ∀ row ∈ rows, row.Marked) (stack : List String) :
    blocksOf stack (rows.map Row.render) = Row.openBlocks stack rows := by
  induction rows generalizing stack with
  | nil => rfl
  | cons row rows ih =>
    obtain ⟨hrow, hrows⟩ := List.forall_mem_cons.mp h
    have hstep := blocksAfter_render hrow stack
    exact (congrArg (fun s => blocksOf s (rows.map Row.render)) hstep).trans (ih hrows _)

theorem openedKeys_render (h : ∀ row ∈ rows, row.Marked) :
    openedKeys (rows.map Row.render) = Row.opened rows := by
  unfold openedKeys Row.opened
  rw [List.filterMap_map]
  refine List.filterMap_congr fun row hrow => ?_
  simp only [Function.comp, (h row hrow).ofLine?_render]
  cases row <;> rfl

/-- The lines before and after a line are the texts of rows. -/
theorem exists_rows_of_split {done rest : List Line} {line : Line}
    (h : rows.map Row.render = done ++ line :: rest) :
    ∃ before row after, rows = before ++ row :: after ∧ before.map Row.render = done ∧
      row.render = line ∧
      after.map Row.render = rest := by
  obtain ⟨before, tail, hrows, hbefore, htail⟩ := List.map_eq_append_iff.mp h
  obtain ⟨row, after, rfl, hrow, hafter⟩ := List.map_eq_cons_iff.mp htail
  exact ⟨before, row, after, hrows, hbefore, hrow, hafter⟩

theorem bracketed_render (hmarked : ∀ row ∈ rows, row.Marked) (h : Row.WellNested rows) :
    Bracketed (rows.map Row.render) := by
  constructor
  · intro stack done line rest key hlines hline
    obtain ⟨before, row, after, hrows, rfl, rfl, -⟩ := exists_rows_of_split hlines
    have hbefore : ∀ r ∈ before, r.Marked :=
      fun r hr => hmarked r (by rw [hrows]; exact List.mem_append_left _ hr)
    have hrow : row.Marked := hmarked row (by simp [hrows])
    rw [blocksOf_render hbefore]
    exact (Row.along_iff_split stack rows).mp (h.innermost stack) before row after hrows key
      (hrow.eq_closeBlock hline)
  · intro stack
    rw [blocksOf_render hmarked]
    exact h.closed stack

/-- The lines of the text of a bundle are the texts of its rows. -/
theorem Bundle.splitLines_content {tag : String} {files : List TextFile} {limit : Int}
    (hsource : sourcesOf tag files ≠ [])
    (h : ∀ row ∈ (Bundle.ofFiles tag files limit).rows, row.Marked) :
    splitLines (Bundle.ofFiles tag files limit).content.toList =
      (Bundle.ofFiles tag files limit).rows.map Row.render :=
  Bundle.splitLines_content_of_no_newline hsource fun row hrow => (h row hrow).no_newline

end Marked

/-! ## The text of a block -/

theorem withFinalNewline_append (cs : List Char) {ds : List Char} (h : ds ≠ []) :
    withFinalNewline (cs ++ ds) = cs ++ withFinalNewline ds := by
  have hlast : (cs ++ ds).getLast? = ds.getLast? := List.getLast?_append_of_ne_nil cs h
  unfold withFinalNewline
  rw [hlast]
  split <;> simp

/-- Completed rows are those of a text with a final newline, if no row has one of its own. -/
theorem terminated_complete_of_getLast? {rows : List Row} (hne : rows ≠ [])
    (h : ∀ row ∈ rows, row.render.getLast? ≠ some '\n' ∧ (row.render = [] → row.isBlank = true)) :
    terminated ((Row.complete rows).map Row.render) = withFinalNewline (Row.text rows) := by
  induction rows with
  | nil => exact absurd rfl hne
  | cons row rows ih =>
    obtain ⟨⟨hrow, -⟩, hrows⟩ := List.forall_mem_cons.mp h
    cases rows with
    | nil =>
      simp [Row.complete, terminated, Row.text, joinAt, withFinalNewline, hrow]
    | cons last rest =>
      have htext : Row.text (row :: last :: rest) = row.render ++ '\n' :: Row.text (last :: rest) :=
        rfl
      have hcons : ∀ ls, terminated (row.render :: ls) = row.render ++ '\n' :: terminated ls := by
        simp [terminated]
      unfold Row.complete
      split
      · rename_i hend
        simp only [Bool.and_eq_true, List.isEmpty_iff] at hend
        obtain ⟨rfl, hblank⟩ := hend
        obtain ⟨file, number, rfl⟩ := Row.eq_of_isBlank hblank
        have hempty : Row.text [.source file number (.plain [])] = [] := rfl
        rw [htext, hempty]
        simp [terminated, withFinalNewline]
      · rename_i hend
        -- the text of the other rows is not empty, so its end is the end of the whole
        have hlater : Row.text (last :: rest) ≠ [] := by
          intro hempty
          cases rest with
          | nil => exact hend (by simpa using (hrows last List.mem_cons_self).2 hempty)
          | cons next rest => exact absurd hempty (by simp [Row.text, joinAt])
        have hsplit : row.render ++ '\n' :: Row.text (last :: rest) =
            (row.render ++ ['\n']) ++ Row.text (last :: rest) := by simp
        rw [List.map_cons, hcons, ih (by simp) hrows, htext, hsplit,
          withFinalNewline_append _ hlater]
        simp

theorem terminated_complete {rows : List Row} (hne : rows ≠ [])
    (h : ∀ row ∈ rows, '\n' ∉ row.render ∧ (row.render = [] → row.isBlank = true)) :
    terminated ((Row.complete rows).map Row.render) = withFinalNewline (Row.text rows) :=
  terminated_complete_of_getLast? hne fun row hrow =>
    ⟨fun hlast => (h row hrow).1 (List.mem_of_getLast? hlast), (h row hrow).2⟩

theorem map_render_copyRows (origin : String) (number : Nat) (lines : List Line) :
    (copyRows origin number lines).map Row.render = lines := by
  induction lines generalizing number with
  | nil => rfl
  | cons line lines ih => exact congrArg (line :: ·) (ih (number + 1))

/-- The text of a file that lies too deep. -/
theorem text_cutRows (limit : Int) (origin : String) (code : List Char) :
    Row.text (cutRows limit origin (splitLines code)) =
      (Row.tooDeep limit origin).render ++ '\n' :: code := by
  have hmap : (cutRows limit origin (splitLines code)).map Row.render =
      (Row.tooDeep limit origin).render :: splitLines code :=
    congrArg ((Row.tooDeep limit origin).render :: ·)
    (map_render_copyRows origin 1 (splitLines code))
  rw [Row.text, hmap]
  exact (joinAt_cons _ (cutAt_ne_nil code)).trans (by rw [joinAt_cutAt])

theorem head?_complete (rows : List Row) : (Row.complete rows).head? = rows.head? := by
  unfold Row.complete
  split
  · rfl
  · rfl
  · split <;> rfl

/-- What follows the text of a row that opens a block. -/
theorem BlockFollows.blockLines {index : Index} {limit : Int} {level : Nat} {key : String}
    {rest : List Row} (h : BlockFollows index limit level key rest)
    (hmarked : ∀ row ∈ rest, row.Marked) :
    BlockLines index limit level key (rest.map Row.render) := by
  obtain ⟨file, body, later, hfile, hname, rfl, hnested, hcases⟩ := h
  have hbody : ∀ row ∈ Row.complete body, row.Marked := fun row hrow => hmarked row (by simp [hrow])
  refine ⟨file, (Row.complete body).map Row.render, later.map Row.render, hfile, hname, ?_,
    bracketed_render hbody hnested.complete, ?_, ?_⟩
  · rw [List.map_cons, List.map_append, List.map_cons]
    rfl
  · rw [List.head?_map, head?_complete]
    rcases hcases with ⟨hlevel, rfl⟩ | ⟨hlevel, hhead⟩
    · have hfirst :=
        (hbody (.tooDeep limit key) (Row.mem_complete_of_not_isBlank List.mem_cons_self rfl))
      exact iff_of_true hfirst.isDepthLine_render hlevel
    · refine iff_of_false ?_ (by omega)
      cases hfirst : body.head? with
      | none => simp
      | some row =>
        have hrow : row ∈ Row.complete body := List.mem_of_head? (by rw [head?_complete, hfirst])
        have hdepth := (hbody row hrow).isDepthLine_render
        simp [hdepth, hhead row hfirst]
  · intro hlevel
    rcases hcases with ⟨-, rfl⟩ | ⟨hless, -⟩
    · rw [← text_cutRows]
      refine terminated_complete (by simp [cutRows]) ?_
      refine List.forall_mem_cons.mpr ⟨⟨?_, fun hempty => absurd hempty (List.cons_ne_nil _ _)⟩,
        fun row hrow => ?_⟩
      · exact (hbody (.tooDeep limit key)
          (Row.mem_complete_of_not_isBlank List.mem_cons_self rfl)).no_newline
      · obtain ⟨number, line, hline, rfl⟩ := mem_copyRows hrow
        refine ⟨not_mem_of_mem_cutAt hline, fun hempty => ?_⟩
        have hline : line = [] := hempty
        rw [hline]
        rfl
    · omega

/-- **The marks in the text of a bundle are well nested**, each header is opened once, and blocks
nest at most one level deeper than the limit.  A block is copied as it is, under a line that says
so, if and only if it lies at that level. -/
theorem bundle_brackets_blocks (tag : String) (files : List TextFile) (limit : Int)
    (hsource : sourcesOf tag files ≠ []) (hfiles : ∀ file ∈ files, UnmarkedFile file) :
    BracketsBlocks (Index.ofFiles files) limit
      (splitLines (Bundle.ofFiles tag files limit).content.toList) := by
  have hmarked : ∀ row ∈ (Bundle.ofFiles tag files limit).rows, row.Marked := fun row hrow =>
    (Bundle.rows_from tag files limit row hrow).marked
      (fun header hheader => hheader.mem_files) hfiles
  rw [Bundle.splitLines_content hsource hmarked]
  obtain ⟨hblocks, hnested⟩ := Bundle.hasBlocks tag files limit
  refine ⟨bracketed_render hmarked hnested, ?_, ?_, ?_⟩
  · rw [openedKeys_render hmarked]
    exact (Bundle.opened_nodup_and_subset tag files limit).1
  · intro done rest hlines
    obtain ⟨before, after, hrows, rfl, -⟩ := List.map_eq_append_iff.mp hlines
    rw [blocksOf_render fun row hrow =>
      hmarked row (by rw [hrows]; exact List.mem_append_left _ hrow)]
    refine length_openBlocks_le (by omega) (fun done key rest hsplit => ?_) hrows
    have hlevel := (hblocks.of_split hsplit).level_le
    omega
  · intro done line rest key hlines hline
    obtain ⟨before, row, after, hrows, rfl, rfl, rfl⟩ := exists_rows_of_split hlines
    have hparts := hmarked
    rw [hrows, List.forall_mem_append, List.forall_mem_cons] at hparts
    obtain ⟨hbefore, hrow, hafter⟩ := hparts
    obtain rfl := hrow.eq_openBlock hline
    rw [blocksOf_render hbefore]
    exact ⟨rfl, (hblocks.of_split hrows).blockLines hafter⟩

/-- A chain of three headers, the second of which is reached at the limit. -/
def chainProgram : List TextFile :=
  [⟨"main.c", "#include \"a.h\"\nint main(void);"⟩, ⟨"a.h", "#include \"b.h\"\n"⟩,
    ⟨"b.h", "#pragma once\n#include \"c.h\""⟩, ⟨"c.h", "int c;\n"⟩]

theorem bundle_brackets_blocks_chainProgram :
    sourcesOf "c" chainProgram ≠ [] ∧ (∀ file ∈ chainProgram, UnmarkedFile file) ∧
      (Bundle.ofFiles "c" chainProgram 1).rows.map (fun row => String.ofList row.render) =
        ["#line 1 \"main.c\"", "// === begin include a.h ===", "#line 1 \"a.h\"",
          "// === begin include b.h ===", "#line 1 \"b.h\"",
            "/* include depth limit exceeded at b.h */", "",
          "#include \"c.h\"", "// === end include b.h ===", "#line 2 \"a.h\"",
            "// === end include a.h ===",
          "#line 2 \"main.c\"", "int main(void);", ""] ∧
      BracketsBlocks (Index.ofFiles chainProgram) 1
        (splitLines (Bundle.ofFiles "c" chainProgram 1).content.toList) := by
  have hsource : sourcesOf "c" chainProgram ≠ [] := by decide
  have hfiles : ∀ file ∈ chainProgram, UnmarkedFile file := by decide
  exact ⟨hsource, hfiles, by decide +kernel,
    bundle_brackets_blocks "c" chainProgram 1 hsource hfiles⟩

end Amalgam
