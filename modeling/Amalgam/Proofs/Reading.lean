import Amalgam.Proofs.Bundle

/-!
# Reading a bundle

A reader goes through the rows of a bundle.  It knows which line of which file the next row is for,
which blocks are open and which were opened before.

* `ExpandsAll.explained` — each row that is put out for a line is the answer to the line at which
  the reader is.
* `ExpandsAll.meets` — the reader meets each include of the sources and of the headers that are
  inlined.

Both hold where no file lies too deep.
-/

set_option autoImplicit false

namespace Amalgam

/-! ## The reader -/

/-- The position of the row after a row: it is set, or the row is one line. -/
def Row.positionAfter (position : Position) : Row → Position
  | .lineIs number file => ⟨file, number⟩
  | _ => ⟨position.file, position.line + 1⟩

/-- Where a reader of rows is. -/
structure Reading where
  /-- The line that the next row is for. -/
  position : Position
  /-- The blocks that are open, outermost first. -/
  chain : List String
  /-- The blocks that have been opened. -/
  inlined : List String

namespace Reading

/-- The reader after a row. -/
def next (s : Reading) (row : Row) : Reading :=
  ⟨row.positionAfter s.position, Row.stackAfter s.chain row, s.inlined ++ Row.opened [row]⟩

/-- The reader to whom rows have been read. -/
def after (rows : List Row) : Reading := rows.foldl next ⟨⟨"", 0⟩, [], []⟩

theorem foldl_next (s : Reading) (rows : List Row) :
    rows.foldl next s =
      ⟨rows.foldl Row.positionAfter s.position, Row.openBlocks s.chain rows, s.inlined ++
        Row.opened rows⟩ := by
  induction rows generalizing s with
  | nil => simp [Row.openBlocks]
  | cons row rows ih =>
    have hopened : Row.opened (row :: rows) = Row.opened [row] ++ Row.opened rows :=
      Row.opened_append [row] rows
    rw [List.foldl_cons, ih, hopened, ← List.append_assoc]
    rfl

/-- Well nested rows leave the reader in the blocks in which it was. -/
theorem foldl_next_of_wellNested {s : Reading} {rows : List Row} {after : List String}
    (hnested : Row.WellNested rows) (hinlines : Row.Inlines s.inlined rows after) :
    rows.foldl next s = ⟨rows.foldl Row.positionAfter s.position, s.chain, after⟩ := by
  rw [foldl_next, hnested.closed, hinlines.after_eq]

theorem next_source (s : Reading) (file : String) (number : Nat) (copy : Copy) :
    s.next (.source file number copy) =
      ⟨⟨s.position.file, s.position.line + 1⟩, s.chain, s.inlined⟩ :=
  foldl_next_of_wellNested (.source file number copy) (.of_opened_eq_nil rfl s.inlined)

theorem next_lineIs (s : Reading) (number : Nat) (file : String) :
    s.next (.lineIs number file) = ⟨⟨file, number⟩, s.chain, s.inlined⟩ :=
  foldl_next_of_wellNested (.lineIs number file) (.of_opened_eq_nil rfl s.inlined)

/-- The reader when a block has started. -/
theorem next_openBlock (s : Reading) (key : String) :
    (s.next (.openBlock key)).next (.lineIs 1 key) =
      ⟨⟨key, 1⟩, s.chain ++ [key], s.inlined ++ [key]⟩ := by
  simp [next, Row.positionAfter, Row.stackAfter, Row.opened, Row.opened?]

/-- After a block the reader is at the next line, outside of the block. -/
theorem foldl_next_blockRows {s : Reading} {key : String} {body : List Row} {after : List String}
    (hnew : key ∉ s.inlined) (hnested : Row.WellNested body)
    (hinlines : Row.Inlines (s.inlined ++ [key]) body after) (origin : String) (number : Nat) :
    (blockRows origin number key body).foldl next s = ⟨⟨origin, number + 1⟩, s.chain, after⟩ := by
  rw [foldl_next_of_wellNested (hnested.blockRows origin number key)
    (.blockRows hnew hinlines origin number)]
  simp [blockRows, List.foldl_append, Row.positionAfter]

end Reading

/-- The line at a position of the file that is being expanded: the innermost header of the chain, or
a source outside of all headers. -/
inductive LineAt (index : Index) (sources : List TextFile) :
    List String → Position → Line → Prop where
  | source {file : TextFile} {number : Nat} {line : Line} (hfile : file ∈ sources)
      (hline : (line, number) ∈ (splitLines file.content.toList).zipIdx 1) :
      LineAt index sources [] ⟨file.name, number⟩ line
  | header {chain : List String} {file : TextFile} {number : Nat} {line : Line}
      (hfile : index.Holds file) (hline : (line, number) ∈ (headerLines file).zipIdx 1) :
      LineAt index sources (chain ++ [file.name]) ⟨file.name, number⟩ line

/-- What is put out for a line, up to its first row: the line is kept in some form, or a header
starts. -/
inductive Answers (index : Index) (s : Reading) (line : Line) : Row → Prop where
  | kept {copy : Copy} (h : Kept index s.chain s.inlined line copy) :
      Answers index s line (.source s.position.file s.position.line copy)
  | opens {header : TextFile} (hline : index.included? line = some header)
      (hchain : header.name ∉ s.chain) (hnew : header.name ∉ s.inlined) :
      Answers index s line (.openBlock header.name)

/-- Whether the row is the first one that is put out for a line. -/
def Row.startsLine : Row → Bool
  | .source _ _ _ => true
  | .openBlock _ => true
  | _ => false

namespace Reading

/-- A row that is put out for a line is the answer to the line at which the reader is. -/
def Explains (index : Index) (sources : List TextFile) (s : Reading) (row : Row) : Prop :=
  row.startsLine = true → ∃ line, LineAt index sources s.chain s.position line ∧
    Answers index s line row

/-- The reader meets each include among lines of a file, the first of which has this number. -/
def Meets (index : Index) (s : Reading) (rows : List Row) (file : String) (number : Nat)
    (lines : List Line) : Prop :=
  ∀ line n target, (line, n) ∈ lines.zipIdx number → index.included? line = some target →
    ∃ done row rest, rows = done ++ row :: rest ∧ (done.foldl next s).position = ⟨file, n⟩ ∧
      Answers index (done.foldl next s) line row

theorem explains_of_not_startsLine {index : Index} {sources : List TextFile} {row : Row}
    (h : row.startsLine = false) (s : Reading) : Explains index sources s row := by
  intro hstarts
  rw [h] at hstarts
  cases hstarts

end Reading

/-- The answer to an include of a known file is not blank. -/
theorem Answers.isBlank_eq_false {index : Index} {s : Reading} {line : Line} {row : Row}
    {target : TextFile} (h : Answers index s line row)
    (hline : index.included? line = some target) : row.isBlank = false := by
  cases h with
  | kept h => rcases h.of_included? hline with ⟨rfl, -⟩ | ⟨rfl, -⟩ <;> rfl
  | opens => rfl

namespace Reading.Meets

variable {index : Index} {s : Reading} {rows more : List Row} {file : String} {number : Nat}
  {lines : List Line}

theorem append_left (h : Meets index s rows file number lines) (more : List Row) :
    Meets index s (rows ++ more) file number lines := by
  intro line n target hmem hline
  obtain ⟨done, row, rest, rfl, hposition, hrow⟩ := h line n target hmem hline
  exact ⟨done, row, rest ++ more, by simp, hposition, hrow⟩

theorem append_right (h : Meets index (rows.foldl next s) more file number lines) :
    Meets index s (rows ++ more) file number lines := by
  intro line n target hmem hline
  obtain ⟨done, row, rest, rfl, hposition, hrow⟩ := h line n target hmem hline
  rw [← List.foldl_append] at hposition hrow
  exact ⟨rows ++ done, row, rest, by simp, hposition, hrow⟩

theorem complete (h : Meets index s rows file number lines) :
    Meets index s (Row.complete rows) file number lines := by
  intro line n target hmem hline
  obtain ⟨done, row, rest, hrows, hposition, hrow⟩ := h line n target hmem hline
  obtain ⟨rest', hcomplete⟩ := Row.complete_split hrows (hrow.isBlank_eq_false hline)
  exact ⟨done, row, rest', hcomplete, hposition, hrow⟩

/-- What is met inside a block is met by a reader that comes to the block. -/
theorem blockRows {key : String}
    (h : Meets index ⟨⟨key, 1⟩, s.chain ++ [key], s.inlined ++ [key]⟩ rows
    file number lines) (origin : String) (line : Nat) :
    Meets index s (blockRows origin line key rows) file number lines := by
  rw [← next_openBlock] at h
  have hinside : Meets index ([.openBlock key, .lineIs 1 key].foldl next s)
      (Row.complete rows) file number lines := h.complete
  exact (hinside.append_left [.closeBlock key, .lineIs (line + 1) origin]).append_right

end Reading.Meets

/-! ## One expansion -/

/-- What holds along the body of a block and at the rows around it holds along the block. -/
theorem Reading.along_blockRows_of {ok : Reading → Row → Prop} {s : Reading} {key : String}
    {body : List Row} (hopen : ok s (.openBlock key))
    (hline : ∀ s number file, ok s (.lineIs number file)) (hclose : ∀ s, ok s (.closeBlock key))
    (hbody : Row.Along next ok ⟨⟨key, 1⟩, s.chain ++ [key], s.inlined ++ [key]⟩ body)
    (origin : String) (number : Nat) : Row.Along next ok s (blockRows origin number key body) := by
  rw [← next_openBlock] at hbody
  refine ⟨hopen, hline _ _ _, ?_⟩
  rw [Row.along_append]
  exact ⟨hbody.complete, hclose _, hline _ _ _, trivial⟩

theorem Reading.along_blockRows {index : Index} {sources : List TextFile} {s : Reading}
    {key : String} {body : List Row} (hopen : Explains index sources s (.openBlock key))
    (hbody : Row.Along next (Explains index sources)
      ⟨⟨key, 1⟩, s.chain ++ [key], s.inlined ++ [key]⟩ body)
    (origin : String) (number : Nat) :
    Row.Along next (Explains index sources) s (blockRows origin number key body) :=
  along_blockRows_of hopen (fun _ _ _ => explains_of_not_startsLine rfl _)
    (fun _ => explains_of_not_startsLine rfl _) hbody origin number

namespace Expands

variable {index : Index} {depth : Int} {chain : List String} {origin : String} {number : Nat}
  {lines : List Line} {before after : List String} {rows : List Row}

/-- Each row is explained, if the lines are those of the file that is being expanded. -/
theorem explained {sources : List TextFile}
    (h : Expands index none depth chain origin number lines before rows after)
    (hlines : ∀ line n, (line, n) ∈ lines.zipIdx number →
      LineAt index sources chain ⟨origin, n⟩ line) :
    Row.Along Reading.next (Reading.Explains index sources)
      ⟨⟨origin, number⟩, chain, before⟩ rows := by
  induction h with
  | done => exact Row.along_nil _
  | @keep _ chain origin number line _ before _ _ copy hcopy hrest ih =>
    have hline := hlines line number List.mem_cons_self
    refine ⟨fun _ => ⟨line, hline, .kept hcopy⟩, ?_⟩
    rw [Reading.next_source]
    exact ih fun line n hmem => hlines line n (List.mem_cons_of_mem _ hmem)
  | cut hlimit => cases hlimit
  | @inline _ chain origin number line _ before _ _ body _ header hdepth hline hc hnew hbody hrest
      ihbody ihrest =>
    have hhere := hlines line number List.mem_cons_self
    have hinside := ihbody fun line n hmem => .header (Index.holds_of_included? hline) hmem
    rw [Row.along_append, Reading.foldl_next_blockRows hnew hbody.wellNested hbody.inlines]
    refine ⟨Reading.along_blockRows
      (fun _ => ⟨line, hhere, .opens hline hc hnew⟩) hinside origin number, ?_⟩
    exact ihrest fun line n hmem => hlines line n (List.mem_cons_of_mem _ hmem)

/-- The includes among the lines are met, and so are those of the headers that are inlined
meanwhile. -/
theorem meets (h : Expands index none depth chain origin number lines before rows after) :
    Reading.Meets index ⟨⟨origin, number⟩, chain, before⟩ rows origin number lines ∧
      ∀ file, index.Holds file → file.name ∈ Row.opened rows →
        Reading.Meets index ⟨⟨origin, number⟩, chain, before⟩ rows file.name 1
          (headerLines file) := by
  induction h with
  | done => exact ⟨by simp [Reading.Meets], by simp⟩
  | @keep _ chain origin number line lines before _ rows copy hcopy hrest ih =>
    obtain ⟨ihlines, ihopened⟩ := ih
    have hlater : ∀ {file : String} {number' : Nat} {lines' : List Line},
        Reading.Meets index ⟨⟨origin, number + 1⟩, chain, before⟩ rows file number' lines' →
          Reading.Meets index ⟨⟨origin, number⟩, chain, before⟩
          (.source origin number copy :: rows) file
            number' lines' := by
      intro file number' lines' hmeets
      have hnext := Reading.next_source ⟨⟨origin, number⟩, chain, before⟩ origin number copy
      rw [← hnext] at hmeets
      exact @Reading.Meets.append_right _ _ [.source origin number copy] _ _ _ _ hmeets
    refine ⟨?_, fun file hfile hopened => hlater (ihopened file hfile hopened)⟩
    intro line' n target hmem hline
    rcases List.mem_cons.mp hmem with heq | hmem
    · obtain ⟨rfl, rfl⟩ := Prod.mk.inj heq
      exact ⟨[], _, rows, rfl, rfl, .kept hcopy⟩
    · exact hlater ihlines line' n target hmem hline
  | cut hlimit => cases hlimit
  | @inline _ chain origin number line lines before _ _ body rows header hdepth hline hc hnew hbody
      hrest ihbody ihrest =>
    obtain ⟨bodylines, bodyopened⟩ := ihbody
    rw [← @Reading.foldl_next_blockRows ⟨⟨origin, number⟩, chain, before⟩ header.name body _ hnew
      hbody.wellNested hbody.inlines origin number] at ihrest
    obtain ⟨restlines, restopened⟩ := ihrest
    constructor
    · intro line' n target hmem htarget
      rcases List.mem_cons.mp hmem with heq | hmem
      · obtain ⟨rfl, rfl⟩ := Prod.mk.inj heq
        exact ⟨[], _, _, rfl, rfl, .opens hline hc hnew⟩
      · exact restlines.append_right line' n target hmem htarget
    · intro file hfile hopened
      simp only [Row.opened_append, Row.opened_blockRows, List.cons_append] at hopened
      rcases List.mem_cons.mp hopened with hname | hopened
      · -- the header that starts here: its lines are those of the block
        obtain rfl := hfile.eq (Index.holds_of_included? hline) hname
        exact (bodylines.blockRows origin number).append_left rows
      · rcases List.mem_append.mp hopened with hopened | hopened
        · exact ((bodyopened file hfile hopened).blockRows origin number).append_left rows
        · exact (restopened file hfile hopened).append_right

end Expands

/-! ## All sources -/

namespace ExpandsAll

variable {index : Index} {files : List TextFile} {before : List String} {chunks : List Chunk}

/-- After a source the reader is outside of all blocks. -/
theorem foldl_next_lines {c : Chunk} {after : List String} (hnested : Row.WellNested c.rows)
    (hinlines : Row.Inlines before c.rows after) (position : Position) (n : Nat) :
    ∃ position', (List.replicate n .gap).foldl Reading.next
        (c.lines.foldl Reading.next ⟨position, [], before⟩) = ⟨position', [], after⟩ := by
  have hlines : Row.Inlines before (c.lines ++ List.replicate n .gap) after :=
    (hinlines.congr c.opened_lines).append (.of_opened_eq_nil (Bundle.opened_gaps n) after)
  have hwell := (Chunk.wellNested_lines hnested).append (Bundle.wellNested_gaps n)
  rw [← List.foldl_append, Reading.foldl_next_of_wellNested hwell hlines]
  exact ⟨_, rfl⟩

/-- What holds along the rows of a source and along the later chunks holds along all of them: the
line directive of the chunk places its rows, whatever stood before it. -/
theorem along_chunkRows_cons {ok : Reading → Row → Prop}
    (hline : ∀ s number file, ok s (.lineIs number file)) (hgap : ∀ s, ok s .gap) {c : Chunk}
    {after : List String} (hnested : Row.WellNested c.rows)
    (hinlines : Row.Inlines before c.rows after)
    (hrows : Row.Along Reading.next ok ⟨⟨c.file.name, 1⟩, [], before⟩ c.rows)
    (hrest : ∀ position, Row.Along Reading.next ok ⟨position, [], after⟩ (Bundle.chunkRows chunks))
    (position : Position) :
    Row.Along Reading.next ok ⟨position, [], before⟩ (Bundle.chunkRows (c :: chunks)) := by
  obtain ⟨n, hchunks⟩ := Bundle.chunkRows_cons c chunks
  obtain ⟨position', hafter⟩ := foldl_next_lines hnested hinlines position n
  have hlines : Row.Along Reading.next ok ⟨position, [], before⟩ c.lines := by
    refine ⟨hline _ _ _, ?_⟩
    rw [Reading.next_lineIs]
    exact hrows.complete
  have hgaps : ∀ row ∈ List.replicate n Row.gap, ∀ s, ok s row := by
    intro row hrow
    rw [List.eq_of_mem_replicate hrow]
    exact hgap
  rw [hchunks, Row.along_append, Row.along_append, hafter]
  exact ⟨hlines, Row.along_of_forall hgaps _, hrest position'⟩

/-- **Each row of the chunks is explained.** -/
theorem explained {sources : List TextFile} (h : ExpandsAll index none files before chunks)
    (hfiles : files ⊆ sources) (position : Position) :
    Row.Along Reading.next (Reading.Explains index sources) ⟨position, [], before⟩
      (Bundle.chunkRows chunks) := by
  induction h generalizing position with
  | nil => exact ⟨Reading.explains_of_not_startsLine rfl _, trivial⟩
  | @cons file files before after rows chunks hfile hrest ih =>
    have hrows := hfile.explained fun line n hmem => .source (hfiles List.mem_cons_self) hmem
    have hlater := ih fun file hmem => hfiles (List.mem_cons_of_mem _ hmem)
    exact along_chunkRows_cons (fun _ _ _ => Reading.explains_of_not_startsLine rfl _)
      (fun _ => Reading.explains_of_not_startsLine rfl _) hfile.wellNested hfile.inlines hrows
      hlater position

/-- **The reader meets each include of the sources and of the headers that are inlined.** -/
theorem meets (h : ExpandsAll index none files before chunks) (position : Position) :
    (∀ file ∈ files, Reading.Meets index ⟨position, [], before⟩
      (Bundle.chunkRows chunks) file.name 1 (splitLines file.content.toList)) ∧
    ∀ file, index.Holds file → file.name ∈ Row.opened (Bundle.chunkRows chunks) →
      Reading.Meets index ⟨position, [], before⟩ (Bundle.chunkRows chunks) file.name 1
        (headerLines file) := by
  induction h generalizing position with
  | nil => exact ⟨by simp, fun file hfile hopened => by cases hopened⟩
  | @cons file files before after rows chunks hfile hrest ih =>
    obtain ⟨n, hrows⟩ := Bundle.chunkRows_cons ⟨file, rows, after⟩ chunks
    obtain ⟨position', hafter⟩ :=
      @foldl_next_lines before ⟨file, rows, after⟩ after hfile.wellNested
        hfile.inlines position n
    obtain ⟨ihfiles, ihopened⟩ := ih position'
    obtain ⟨herelines, hereopened⟩ := hfile.meets
    have hhere : ∀ {name : String} {lines : List Line},
        Reading.Meets index ⟨⟨file.name, 1⟩, [], before⟩ rows name 1 lines →
          Reading.Meets index ⟨position, [], before⟩
          (Bundle.chunkRows (⟨file, rows, after⟩ :: chunks)) name 1
            lines := by
      intro name lines hmeets
      rw [← Reading.next_lineIs ⟨position, [], before⟩] at hmeets
      rw [hrows]
      exact (@Reading.Meets.append_right _ _ [.lineIs 1 file.name] _ _ _ _
        hmeets.complete).append_left _
    have hlater : ∀ {name : String} {lines : List Line},
        Reading.Meets index ⟨position', [], after⟩ (Bundle.chunkRows chunks) name 1 lines →
          Reading.Meets index ⟨position, [], before⟩
          (Bundle.chunkRows (⟨file, rows, after⟩ :: chunks)) name 1
            lines := by
      intro name lines hmeets
      rw [← hafter] at hmeets
      rw [hrows]
      exact hmeets.append_right.append_right
    constructor
    · intro source hsource
      rcases List.mem_cons.mp hsource with rfl | hsource
      · exact hhere herelines
      · exact hlater (ihfiles source hsource)
    · intro header hheader hopened
      rw [hrows, Row.opened_append, Row.opened_append, Bundle.opened_gaps, Chunk.opened_lines,
        List.nil_append] at hopened
      rcases List.mem_append.mp hopened with hopened | hopened
      · exact hhere (hereopened header hheader hopened)
      · exact hlater (ihopened header hheader hopened)

end ExpandsAll

end Amalgam
