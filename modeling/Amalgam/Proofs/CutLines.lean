import Amalgam.Proofs.Origin

/-!
# Lines of files that are cut off

A file that lies too deep is copied under a line that says so.  That line stands behind the line
directive, where the first line of the file is expected, so each line of the file is attributed to
the line after it.

* `Reading.Places` — where a reader is at the row of a line: at that line, or one line later if the
  file is cut off.
* `Expands.places`, `Bundle.places_rows` — this holds of every row of a bundle.
* `cut_lines_attributed_fails` — so the lines of a file that is cut off are not attributed to
  themselves.
* `bundle_shifts_cut_lines` — each line of the text of a bundle is attributed to the line that it
  stands for, or to the next one if it stands more blocks deep than the limit allows.
-/

set_option autoImplicit false

namespace Amalgam

/-! ## Where a reader is -/

/-- At a row that stands for a line the reader is at that line, unless the row lies deeper than the
limit: then the line is copied, and the reader is one line further. -/
def Reading.Places (index : Index) (sources : List TextFile) (limit : Int) (s : Reading)
    (row : Row) : Prop :=
  ∀ name number copy, row = .source name number copy →
    ∃ line, LineAt index sources s.chain ⟨name, number⟩ line ∧
      (limit < s.chain.length → copy = .plain line ∧ s.position = ⟨name, number + 1⟩) ∧
      (s.chain.length ≤ limit → Kept index s.chain s.inlined line copy ∧
        s.position = ⟨name, number⟩)

namespace Reading

variable {index : Index} {sources : List TextFile} {limit : Int}

/-- Other rows say nothing about a line. -/
theorem places_of_ne {row : Row} (h : ∀ name number copy, row ≠ .source name number copy)
    (s : Reading) :
    Places index sources limit s row :=
  fun name number copy heq => absurd heq (h name number copy)

theorem places_blockRows {s : Reading} {key : String} {body : List Row}
    (hbody : Row.Along next (Places index sources limit)
      ⟨⟨key, 1⟩, s.chain ++ [key], s.inlined ++ [key]⟩ body)
    (origin : String) (number : Nat) :
    Row.Along next (Places index sources limit) s (blockRows origin number key body) :=
  along_blockRows_of (places_of_ne (by simp) _) (fun _ _ _ => places_of_ne (by simp) _)
    (fun _ => places_of_ne (by simp) _) hbody origin number

/-- The lines of a file that is cut off are copied, each one line after its own. -/
theorem places_copyRows {chain inlined : List String} (hlimit : limit < chain.length)
    {origin : String} {number : Nat} {lines : List Line}
    (hlines : ∀ line n, (line, n) ∈ lines.zipIdx number →
      LineAt index sources chain ⟨origin, n⟩ line) :
    Row.Along next (Places index sources limit) ⟨⟨origin, number + 1⟩, chain, inlined⟩
      (copyRows origin number lines) := by
  induction lines generalizing number with
  | nil => exact Row.along_nil _
  | cons line lines ih =>
    refine ⟨?_, ?_⟩
    · intro name n copy heq
      obtain ⟨rfl, rfl, rfl⟩ := Row.source.inj heq
      refine ⟨line, hlines line number List.mem_cons_self, fun _ => ⟨rfl, rfl⟩, fun hle => ?_⟩
      exact absurd hlimit (Int.not_lt.mpr hle)
    · rw [next_source]
      exact ih fun line n hmem => hlines line n (List.mem_cons_of_mem _ hmem)

/-- The mark of a file that is cut off takes the place of its first line. -/
theorem places_cutRows {chain inlined : List String} (hlimit : limit < chain.length)
    {origin : String} {lines : List Line}
    (hlines : ∀ line n, (line, n) ∈ lines.zipIdx 1 → LineAt index sources chain ⟨origin, n⟩ line)
    (bound : Int) :
    Row.Along next (Places index sources limit) ⟨⟨origin, 1⟩, chain, inlined⟩
      (cutRows bound origin lines) := by
  have hmark : next ⟨⟨origin, 1⟩, chain, inlined⟩ (.tooDeep bound origin) =
      ⟨⟨origin, 2⟩, chain, inlined⟩ :=
    foldl_next_of_wellNested (.single (by simp) (by simp)) (.of_opened_eq_nil rfl inlined)
  refine ⟨places_of_ne (by simp) _, ?_⟩
  rw [hmark]
  exact places_copyRows hlimit hlines

end Reading

/-! ## One expansion -/

section Expansion

variable {index : Index} {sources : List TextFile} {limit : Int}

theorem Expands.places {depth : Int} {chain : List String} {origin : String} {number : Nat}
    {lines : List Line} {before after : List String} {rows : List Row}
    (h : Expands index (some limit) depth chain origin number lines before rows after)
    (hdepth : depth = chain.length) (hlimit : depth ≤ limit)
    (hlines : ∀ line n, (line, n) ∈ lines.zipIdx number →
      LineAt index sources chain ⟨origin, n⟩ line) :
    Row.Along Reading.next (Reading.Places index sources limit)
      ⟨⟨origin, number⟩, chain, before⟩ rows := by
  induction h with
  | done => exact Row.along_nil _
  | @keep _ chain origin number line _ before _ _ copy hcopy hrest ih =>
    refine ⟨?_, ?_⟩
    · intro name n copy' heq
      obtain ⟨rfl, rfl, rfl⟩ := Row.source.inj heq
      refine ⟨line, hlines line number List.mem_cons_self, fun hless => ?_, fun _ => ⟨hcopy, rfl⟩⟩
      have hless : limit < (chain.length : Int) := hless
      omega
    · rw [Reading.next_source]
      exact ih hdepth hlimit fun line n hmem => hlines line n (List.mem_cons_of_mem _ hmem)
  | @cut _ chain origin number line _ before _ rows bound header hbound hless hline hc hnew hrest
      ih =>
    obtain rfl := Option.some.inj hbound
    have hdeep : limit < ((chain ++ [header.name]).length : Int) := by
      rw [List.length_append, List.length_singleton]
      omega
    have hbody :=
      @Reading.places_cutRows index sources limit (chain ++ [header.name])
        (before ++ [header.name]) hdeep
        header.name (headerLines header)
        (fun line n hmem => .header (Index.holds_of_included? hline) hmem) limit
    rw [Row.along_append, Reading.foldl_next_blockRows hnew (wellNested_cutRows _ _ _)
      (.of_opened_eq_nil (opened_cutRows _ _ _) _)]
    refine ⟨Reading.places_blockRows hbody origin number, ?_⟩
    exact ih hdepth hlimit fun line n hmem => hlines line n (List.mem_cons_of_mem _ hmem)
  | @inline _ chain origin number line _ before _ _ body _ header hbound hline hc hnew hbody hrest
      ihbody ihrest =>
    have hinside :=
      ihbody (by rw [List.length_append, List.length_singleton]; omega) (hbound limit rfl)
        fun line n hmem => .header (Index.holds_of_included? hline) hmem
    rw [Row.along_append, Reading.foldl_next_blockRows hnew hbody.wellNested hbody.inlines]
    refine ⟨Reading.places_blockRows hinside origin number, ?_⟩
    exact ihrest hdepth hlimit fun line n hmem => hlines line n (List.mem_cons_of_mem _ hmem)

/-- A source that is cut off itself, or that is expanded outside of all blocks. -/
theorem places_expand {file : TextFile} (hfile : file ∈ sources) (inlined : List String) :
    Row.Along Reading.next (Reading.Places index sources limit) ⟨⟨file.name, 1⟩, [], inlined⟩
      (expand index { Context.fresh limit with inlined := inlined } file.name
        file.content).rows := by
  have hlines : ∀ line n, (line, n) ∈ (splitLines file.content.toList).zipIdx 1 →
      LineAt index sources [] ⟨file.name, n⟩ line := fun line n hmem => .source hfile hmem
  by_cases hlimit : limit < 0
  · rw [@expand_of_limit_lt index { Context.fresh limit with inlined := inlined } hlimit]
    exact Reading.places_cutRows hlimit hlines limit
  · have hexpands := @expands_expand index { Context.fresh limit with inlined := inlined }
      (Int.not_lt.mp hlimit) file.name file.content
    exact hexpands.places rfl (Int.not_lt.mp hlimit) hlines

end Expansion

/-! ## All sources -/

section Sources

variable {index : Index} {sources files : List TextFile} {limit : Int}

theorem places_expandFiles (hfiles : ∀ file ∈ files, file ∈ sources) (inlined : List String)
    (position : Position) :
    Row.Along Reading.next (Reading.Places index sources limit) ⟨position, [], inlined⟩
      (Bundle.chunkRows (expandFiles index
        { Context.fresh limit with inlined := inlined } files)) := by
  induction files generalizing inlined position with
  | nil => exact ⟨Reading.places_of_ne (by simp) _, trivial⟩
  | cons file files ih =>
    obtain ⟨hfile, hlater⟩ := List.forall_mem_cons.mp hfiles
    have hinlines :=
      @inlines_expand index { Context.fresh limit with inlined := inlined } file.name file.content
    rw [expandFiles]
    exact ExpandsAll.along_chunkRows_cons (fun _ _ _ => Reading.places_of_ne (by simp) _)
      (fun _ => Reading.places_of_ne (by simp) _) (wellNested_expand _ _ _) hinlines
      (places_expand hfile inlined) (ih hlater _) position

/-- **Every row of a bundle is where it says, or one line off.** -/
theorem Bundle.places_rows (tag : String) (files : List TextFile) (limit : Int) (start : Position) :
    Row.Along Reading.next (Reading.Places (Index.ofFiles files) (sourcesOf tag files) limit)
      ⟨start, [], []⟩ (Bundle.ofFiles tag files limit).rows := by
  cases hb : Bundle.ofFiles tag files limit with
  | verbatim given => exact Row.along_nil _
  | unit sources chunks =>
    obtain ⟨order, -, horder, rfl⟩ := Bundle.exists_order hb
    exact places_expandFiles (fun file hfile => (horder file).mp hfile) [] start

end Sources

/-! ## The text -/

theorem LineOf.plainLine {file : TextFile} {line : Line} (h : LineOf file line)
    (hfile : PlainFile file) :
    PlainLine line := by
  obtain ⟨original, horiginal, rfl | rfl⟩ := h
  · exact hfile.plainLine line horiginal
  · exact (hfile.plainLine original horiginal).blankPragmaLine

/-- A row that comes from plain files is legible, also the mark of a file that is cut off. -/
theorem Row.From.legible {index : Index} {files : List TextFile} {row : Row}
    (h : Row.From index files row) (hindex : ∀ header, index.Holds header → header ∈ files)
    (hfiles : ∀ file ∈ files, PlainFile file) :
    row.Legible := by
  cases h with
  | kept number hfile hline hcopy =>
    have hplain := hline.plainLine (hfiles _ hfile)
    exact .source (hcopy.plainLine (fun header hheader => hfiles header (hindex header hheader))
      hplain) _ number
  | @copied _ line number hfile hline =>
    exact @Row.Legible.source (.plain line) (hline.plainLine (hfiles _ hfile)) _ number
  | openBlock hfile => exact .openBlock (hfiles _ hfile).name
  | closeBlock hfile => exact .closeBlock (hfiles _ hfile).name
  | lineIs number hfile => exact .lineIs (hfiles _ hfile).name number
  | tooDeep limit hfile =>
    exact .of_plainLine (.comment (by decide) (by decide) (by decide) (hfiles _ hfile).name)
      fun _ => rfl
  | gap => exact .gap

namespace Bundle

variable {tag : String} {files : List TextFile}

theorem legible_rows (hfiles : ∀ file ∈ files, PlainFile file) (limit : Int) :
    ∀ row ∈ (ofFiles tag files limit).rows, row.Legible := fun row hrow =>
  (rows_from tag files limit row hrow).legible (fun _ hheader => hheader.mem_files) hfiles

theorem splitLines_content_of_plain (hsource : sourcesOf tag files ≠ [])
    (hfiles : ∀ file ∈ files, PlainFile file) (limit : Int) :
    splitLines (ofFiles tag files limit).content.toList =
      (ofFiles tag files limit).rows.map Row.render :=
  splitLines_content_of_no_newline hsource fun row hrow =>
    (legible_rows hfiles limit row hrow).no_newline

/-- A reader of the text comes to the line of a row as a reader of rows comes to the row. -/
theorem getElem?_positionsFrom_content (hsource : sourcesOf tag files ≠ [])
    (hfiles : ∀ file ∈ files, PlainFile file) (limit : Int) (start : Position) {done : List Row}
    {row : Row} {rest : List Row} (hrows : (ofFiles tag files limit).rows = done ++ row :: rest) :
    (positionsFrom start (splitLines (ofFiles tag files limit).content.toList))[done.length]? =
      some (done.foldl Row.positionAfter start) := by
  have hlegible := @legible_rows tag files hfiles limit
  rw [hrows] at hlegible
  have hposition :=
    getElem?_positionsFrom start (done.map Row.render) row.render (rest.map Row.render)
  rw [List.length_map, Row.Legible.foldl_after (List.forall_mem_append.mp hlegible).1] at hposition
  rw [splitLines_content_of_plain hsource hfiles, hrows, List.map_append, List.map_cons]
  exact hposition

end Bundle

/-- A header that lies too deep if no include may be followed. -/
def shallowProgram : List TextFile :=
  [⟨"main.c", "#include \"a.h\"\nint x;"⟩, ⟨"a.h", "int a;\nint b;"⟩]

/-- The lines of a file that is cut off are not always attributed to themselves. -/
theorem cut_lines_attributed_fails :
    ¬ ∀ (tag : String) (files : List TextFile) (limit : Int) (start : Position),
      sourcesOf tag files ≠ [] → (∀ file ∈ files, PlainFile file) →
      ∀ done name number copy rest,
        (Bundle.ofFiles tag files limit).rows = done ++ .source name number copy :: rest →
        limit < (Row.openBlocks [] done).length →
        (positionsFrom start (splitLines
          (Bundle.ofFiles tag files limit).content.toList))[done.length]? =
          some ⟨name, number⟩ := by
  intro h
  have hsource : sourcesOf "c" shallowProgram ≠ [] := by decide
  have hfiles : ∀ file ∈ shallowProgram, PlainFile file := by decide
  have hrows : (Bundle.ofFiles "c" shallowProgram 0).rows =
      (Bundle.ofFiles "c" shallowProgram 0).rows.take 4 ++
      .source "a.h" 1 (.plain "int a;".toList) ::
        (Bundle.ofFiles "c" shallowProgram 0).rows.drop 5 := by decide
  have hposition := h "c" shallowProgram 0 ⟨"out.c", 1⟩ hsource hfiles _ _ _ _ _ hrows (by decide)
  rw [Bundle.getElem?_positionsFrom_content hsource hfiles 0 ⟨"out.c", 1⟩ hrows] at hposition
  revert hposition
  decide

/-- **Each line of the text of a bundle that stands for a line of a file is attributed to it or to
the next one.**  A line that stands at most `limit` blocks deep is attributed to itself.  A line
that stands deeper is a copy of a line of a file that is cut off, and it is attributed to the line
after it. -/
theorem bundle_shifts_cut_lines (tag : String) (files : List TextFile) (limit : Int)
    (start : Position) (hsource : sourcesOf tag files ≠ [])
    (hfiles : ∀ file ∈ files, PlainFile file) :
    splitLines (Bundle.ofFiles tag files limit).content.toList =
        (Bundle.ofFiles tag files limit).rows.map Row.render ∧
      ∀ done name number copy rest,
        (Bundle.ofFiles tag files limit).rows = done ++ .source name number copy :: rest →
        ∃ line, LineAt (Index.ofFiles files) (sourcesOf tag files) (Row.openBlocks [] done)
          ⟨name, number⟩ line ∧
          (limit < (Row.openBlocks [] done).length → copy = .plain line ∧
            (positionsFrom start (splitLines
              (Bundle.ofFiles tag files limit).content.toList))[done.length]? =
              some ⟨name, number + 1⟩) ∧
          ((Row.openBlocks [] done).length ≤ limit →
            Kept (Index.ofFiles files) (Row.openBlocks [] done) (Row.opened done) line copy ∧
            (positionsFrom start (splitLines
              (Bundle.ofFiles tag files limit).content.toList))[done.length]? =
              some ⟨name, number⟩) := by
  refine ⟨Bundle.splitLines_content_of_plain hsource hfiles limit,
    fun done name number copy rest hrows => ?_⟩
  have hplaces := (Row.along_iff_split _ _).mp (Bundle.places_rows tag files limit start) done
    (.source name number copy) rest hrows
  rw [Reading.foldl_next] at hplaces
  obtain ⟨line, hline, hcut, hexpanded⟩ := hplaces name number copy rfl
  rw [Bundle.getElem?_positionsFrom_content hsource hfiles limit start hrows]
  refine ⟨line, hline, fun hdeep => ?_, fun hshallow => ?_⟩
  · obtain ⟨hcopy, hposition⟩ := hcut hdeep
    exact ⟨hcopy, congrArg some hposition⟩
  · obtain ⟨hcopy, hposition⟩ := hexpanded hshallow
    exact ⟨hcopy, congrArg some hposition⟩

theorem bundle_shifts_cut_lines_shallowProgram :
    sourcesOf "c" shallowProgram ≠ [] ∧ (∀ file ∈ shallowProgram, PlainFile file) ∧
      (Bundle.ofFiles "c" shallowProgram 0).rows[5]? =
        some (.source "a.h" 2 (.plain "int b;".toList)) ∧
      (positionsFrom ⟨"out.c", 1⟩ (splitLines
        (Bundle.ofFiles "c" shallowProgram 0).content.toList))[5]? = some ⟨"a.h", 3⟩ := by
  have hsource : sourcesOf "c" shallowProgram ≠ [] := by decide
  have hfiles : ∀ file ∈ shallowProgram, PlainFile file := by decide
  obtain ⟨line, -, hcut, -⟩ :=
    (bundle_shifts_cut_lines "c" shallowProgram 0 ⟨"out.c", 1⟩ hsource hfiles).2
      ((Bundle.ofFiles "c" shallowProgram 0).rows.take 5) "a.h" 2 (.plain "int b;".toList)
      ((Bundle.ofFiles "c" shallowProgram 0).rows.drop 6) (by decide)
  have hlength : ((Bundle.ofFiles "c" shallowProgram 0).rows.take 5).length = 5 := by decide
  rw [hlength] at hcut
  exact ⟨hsource, hfiles, by decide, (hcut (by decide)).2⟩

end Amalgam
