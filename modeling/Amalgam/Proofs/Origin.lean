import Amalgam.Proofs.Attribution

/-!
# Where rows come from

Each row of a bundle is made of a file: it stands for one of its lines, or it names the file.  This
holds for every limit, also where files lie too deep and are copied.

* `Row.From` — the ways in which a row can come from files.
* `Bundle.rows_from` — every row of a bundle comes from the files of the bundle.
-/

set_option autoImplicit false

namespace Amalgam

/-- A line of the file, as it is or as a line of a header. -/
def LineOf (file : TextFile) (line : Line) : Prop :=
  ∃ original ∈ splitLines file.content.toList, line = original ∨ line = blankPragmaLine original

theorem lineOf_splitLines {file : TextFile} :
    ∀ line ∈ splitLines file.content.toList, LineOf file line :=
  fun line hline => ⟨line, hline, Or.inl rfl⟩

theorem lineOf_headerLines {file : TextFile} : ∀ line ∈ headerLines file, LineOf file line := by
  rw [headerLines_eq]
  intro line hline
  obtain ⟨original, horiginal, rfl⟩ := List.mem_map.mp hline
  exact ⟨original, horiginal, Or.inr rfl⟩

/-- The row stands for a line of one of the files, or names one of them. -/
inductive Row.From (index : Index) (files : List TextFile) : Row → Prop where
  | kept {file : TextFile} {line : Line} {chain inlined : List String} {copy : Copy} (number : Nat)
      (hfile : file ∈ files) (hline : LineOf file line)
      (hcopy : Kept index chain inlined line copy) :
      From index files (.source file.name number copy)
  | copied {file : TextFile} {line : Line} (number : Nat) (hfile : file ∈ files)
      (hline : LineOf file line) :
      From index files (.source file.name number (.plain line))
  | openBlock {file : TextFile} (hfile : file ∈ files) : From index files (.openBlock file.name)
  | closeBlock {file : TextFile} (hfile : file ∈ files) : From index files (.closeBlock file.name)
  | lineIs {file : TextFile} (number : Nat) (hfile : file ∈ files) :
      From index files (.lineIs number file.name)
  | tooDeep {file : TextFile} (limit : Int) (hfile : file ∈ files) :
      From index files (.tooDeep limit file.name)
  | gap : From index files .gap

section From

variable {index : Index} {files : List TextFile}

theorem mem_copyRows {origin : String} {number : Nat} {lines : List Line} {row : Row}
    (h : row ∈ copyRows origin number lines) :
    ∃ n line, line ∈ lines ∧ row = .source origin n (.plain line) := by
  induction lines generalizing number with
  | nil => cases h
  | cons line lines ih =>
    rcases List.mem_cons.mp h with rfl | h
    · exact ⟨number, line, List.mem_cons_self, rfl⟩
    · obtain ⟨n, line', hline', rfl⟩ := ih h
      exact ⟨n, line', List.mem_cons_of_mem _ hline', rfl⟩

theorem from_cutRows {file : TextFile} (hfile : file ∈ files) {lines : List Line}
    (hlines : ∀ line ∈ lines, LineOf file line) (limit : Int) :
    ∀ row ∈ cutRows limit file.name lines, Row.From index files row := by
  refine List.forall_mem_cons.mpr ⟨.tooDeep limit hfile, fun row hrow => ?_⟩
  obtain ⟨n, line, hline, rfl⟩ := mem_copyRows hrow
  exact .copied n hfile (hlines line hline)

theorem from_blockRows {origin header : TextFile} (horigin : origin ∈ files)
    (hheader : header ∈ files) {body : List Row} (hbody : ∀ row ∈ body, Row.From index files row)
    (number : Nat) :
    ∀ row ∈ blockRows origin.name number header.name body, Row.From index files row := by
  unfold blockRows
  simp only [List.forall_mem_cons, List.forall_mem_append]
  exact ⟨.openBlock hheader, .lineIs 1 hheader,
    fun row hrow => hbody row (Row.mem_of_mem_complete hrow),
    .closeBlock hheader, .lineIs (number + 1) horigin, by simp⟩

/-- The rows of an expansion come from files, if the lines do and all headers are among the
files. -/
theorem Expands.rows_from {limit : Option Int} {depth : Int} {chain : List String} {origin : String}
    {number : Nat} {lines : List Line} {before after : List String} {rows : List Row}
    (h : Expands index limit depth chain origin number lines before rows after)
    (hindex : ∀ header, index.Holds header → header ∈ files) {file : TextFile}
    (hfile : file ∈ files) (hname : file.name = origin)
    (hlines : ∀ line ∈ lines, LineOf file line) :
    ∀ row ∈ rows, Row.From index files row := by
  induction h generalizing file with
  | done => simp
  | keep hcopy hrest ih =>
    obtain ⟨hline, hlater⟩ := List.forall_mem_cons.mp hlines
    subst hname
    exact List.forall_mem_cons.mpr ⟨.kept _ hfile hline hcopy, ih hfile rfl hlater⟩
  | cut hlimit hdepth hline hchain hnew hrest ih =>
    have hheader := hindex _ (Index.holds_of_included? hline)
    have hlater := ih hfile hname (List.forall_mem_cons.mp hlines).2
    subst hname
    exact List.forall_mem_append.mpr
      ⟨from_blockRows hfile hheader (from_cutRows hheader lineOf_headerLines _) _, hlater⟩
  | inline hdepth hline hchain hnew hbody hrest ihbody ihrest =>
    have hheader := hindex _ (Index.holds_of_included? hline)
    have hblock := ihbody hheader rfl lineOf_headerLines
    have hlater := ihrest hfile hname (List.forall_mem_cons.mp hlines).2
    subst hname
    exact List.forall_mem_append.mpr ⟨from_blockRows hfile hheader hblock _, hlater⟩

theorem from_expand (hindex : ∀ header, index.Holds header → header ∈ files) {file : TextFile}
    (hfile : file ∈ files) (ctx : Context) :
    ∀ row ∈ (expand index ctx file.name file.content).rows, Row.From index files row := by
  by_cases hlimit : ctx.limit < ctx.depth
  · rw [expand_of_limit_lt hlimit]
    exact from_cutRows hfile lineOf_splitLines ctx.limit
  · exact (expands_expand (by omega) file.name file.content).rows_from hindex hfile rfl
      lineOf_splitLines

theorem from_expandFiles (hindex : ∀ header, index.Holds header → header ∈ files) (ctx : Context)
    {sources : List TextFile} (hsources : ∀ file ∈ sources, file ∈ files) :
    ∀ c ∈ expandFiles index ctx sources, c.file ∈ files ∧
      ∀ row ∈ c.rows, Row.From index files row := by
  induction sources generalizing ctx with
  | nil => simp [expandFiles]
  | cons file sources ih =>
    obtain ⟨hfile, hlater⟩ := List.forall_mem_cons.mp hsources
    exact List.forall_mem_cons.mpr ⟨⟨hfile, from_expand hindex hfile ctx⟩, ih _ hlater⟩

end From

/-- **Every row of a bundle comes from its files.** -/
theorem Bundle.rows_from (tag : String) (files : List TextFile) (limit : Int) :
    ∀ row ∈ (Bundle.ofFiles tag files limit).rows, Row.From (Index.ofFiles files) files row := by
  unfold Bundle.ofFiles
  cases hs : Sources.ofFiles tag files with
  | none => simp [Bundle.rows]
  | some sources =>
    have hsources : ∀ file ∈ sources.order, file ∈ files := fun file hfile =>
      (List.mem_filter.mp ((mem_order_iff hs file).mp hfile)).1
    have hchunks :=
      from_expandFiles (fun header hheader => hheader.mem_files) (Context.fresh limit) hsources
    intro row hrow
    rcases mem_chunkRows.mp hrow with rfl | ⟨c, hc, hrow⟩
    · exact .gap
    · obtain ⟨hfile, hrows⟩ := hchunks c hc
      rcases List.mem_cons.mp hrow with rfl | hrow
      · exact .lineIs 1 hfile
      · exact hrows row (Row.mem_of_mem_complete hrow)

end Amalgam
