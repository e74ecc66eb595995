import Amalgam.Proofs.Cycles
import Amalgam.Proofs.Idempotence
import Amalgam.Proofs.Origin
import Amalgam.Proofs.Recursion
import Mathlib.Data.List.Chain

/-!
# What the limit cuts off

A header is cut off where it is first met beyond the limit.  Since it is not inlined again, it stays
cut off, also if a shorter chain of includes leads to it: `short_chain_expanded_fails`.  What holds
is this.

* `Expands.beyond` — a header is cut off only at the end of a chain of one include more than the
  limit.
* `Expands.cutOrExpanded` — a header that is inlined and not cut off is expanded, and all that it
  includes is inlined.
* `bundle_expands_uncut_chains` — so every header is expanded to which a chain of includes leads on
  which no header is cut off.
-/

set_option autoImplicit false

namespace Amalgam

/-! ## Parts of rows -/

/-- A part that does not end in a blank row is not dropped. -/
theorem Row.infix_complete {part rows : List Row} {last : Row} (h : part ++ [last] <:+: rows)
    (hlast : last.isBlank = false) : part ++ [last] <:+: Row.complete rows := by
  obtain ⟨earlier, later, hrows⟩ := h
  have hsplit : rows = (earlier ++ part) ++ last :: later := by simp [← hrows]
  obtain ⟨rest, hcomplete⟩ := Row.complete_split hsplit hlast
  exact ⟨earlier, rest, by simp [hcomplete]⟩

theorem complete_infix_blockRows (origin : String) (number : Nat) (key : String) (body : List Row) :
    Row.complete body <:+: blockRows origin number key body :=
  ⟨[.openBlock key, .lineIs 1 key], [.closeBlock key, .lineIs (number + 1) origin],
    by simp [blockRows]⟩

/-! ## Expanded headers -/

/-- Something else stands for the include of `target` at line `number` of the file: a comment, or a
block. -/
inductive Replaced (rows : List Row) (file : String) (number : Nat) (target : String) : Prop where
  | recursive (h : .source file number (.recursive target) ∈ rows)
  | duplicate (h : .source file number (.duplicate target) ∈ rows)
  | block {body : List Row} (h : blockRows file number target body <:+: rows)

namespace Replaced

variable {rows more : List Row} {file target : String} {number : Nat}

theorem mono (h : Replaced rows file number target) (hrows : rows <:+: more) :
    Replaced more file number target := by
  cases h with
  | recursive h => exact .recursive (hrows.subset h)
  | duplicate h => exact .duplicate (hrows.subset h)
  | block h => exact .block (h.trans hrows)

theorem complete (h : Replaced rows file number target) :
    Replaced (Row.complete rows) file number target := by
  cases h with
  | recursive h => exact .recursive (Row.mem_complete_of_not_isBlank h rfl)
  | duplicate h => exact .duplicate (Row.mem_complete_of_not_isBlank h rfl)
  | @block body h =>
    have hblock : blockRows file number target body =
        (.openBlock target :: .lineIs 1 target :: (Row.complete body ++ [.closeBlock target])) ++
          [.lineIs (number + 1) file] := by simp [blockRows]
    have hcomplete : blockRows file number target body <:+: Row.complete rows := by
      rw [hblock] at h ⊢
      exact Row.infix_complete h rfl
    exact .block hcomplete

end Replaced

/-- Each include of a known file among the lines of the file is replaced, and none is left. -/
structure Unfolds (index : Index) (file : TextFile) (rows : List Row) : Prop where
  replaced : ∀ line number target, (line, number) ∈ (splitLines file.content.toList).zipIdx 1 →
    index.included? line = some target → Replaced rows file.name number target.name
  none_left : ∀ number copy, .source file.name number copy ∈ rows →
    index.included? copy.render = none

/-- The block of a header with this body. -/
def blockOf (key : String) (body : List Row) : List Row :=
  .openBlock key :: .lineIs 1 key :: (body ++ [.closeBlock key])

theorem blockOf_prefix_blockRows (origin : String) (number : Nat) (key : String) (body : List Row) :
    blockOf key (Row.complete body) <+: blockRows origin number key body :=
  ⟨[.lineIs (number + 1) origin], by simp [blockOf, blockRows]⟩

/-- A block of the header stands among the rows, and the header is expanded in it. -/
def ExpandedIn (index : Index) (rows : List Row) (file : TextFile) : Prop :=
  ∃ body, blockOf file.name body <:+: rows ∧ Row.WellNested body ∧ Unfolds index file body

/-- The header is cut off, or it is expanded and all that it includes is inlined. -/
def CutOrExpanded (index : Index) (limit : Int) (rows : List Row) (inlined : List String)
    (file : TextFile) : Prop :=
  .tooDeep limit file.name ∈ rows ∨
    ExpandedIn index rows file ∧ ∀ target, index.Includes file target → target.name ∈ inlined

namespace CutOrExpanded

variable {index : Index} {limit : Int} {rows more : List Row} {inlined after : List String}
  {file : TextFile}

theorem mono (h : CutOrExpanded index limit rows inlined file) (hrows : rows <:+: more)
    (hinlined : inlined ⊆ after) :
    CutOrExpanded index limit more after file := by
  rcases h with hcut | ⟨⟨body, hblock, hbody⟩, htargets⟩
  · exact Or.inl (hrows.subset hcut)
  · exact Or.inr ⟨⟨body, hblock.trans hrows, hbody⟩,
      fun target htarget => hinlined (htargets target htarget)⟩

theorem complete (h : CutOrExpanded index limit rows inlined file) :
    CutOrExpanded index limit (Row.complete rows) inlined file := by
  rcases h with hcut | ⟨⟨body, hblock, hbody⟩, htargets⟩
  · exact Or.inl (Row.mem_complete_of_not_isBlank hcut rfl)
  · have hinside :=
      @Row.infix_complete (.openBlock file.name :: .lineIs 1 file.name :: body) _ _ hblock rfl
    exact Or.inr ⟨⟨body, hinside, hbody⟩, htargets⟩

end CutOrExpanded

/-! ## One expansion -/

namespace Expands

variable {index : Index} {depth : Int} {chain : List String} {origin : String} {number : Nat}
  {lines : List Line} {before after : List String} {rows : List Row}

/-- Each include of a known file among the lines is replaced. -/
theorem replaced {limit : Option Int}
    (h : Expands index limit depth chain origin number lines before rows after) :
    ∀ line n target, (line, n) ∈ lines.zipIdx number → index.included? line = some target →
      Replaced rows origin n target.name := by
  induction h with
  | done => simp
  | keep hcopy hrest ih =>
    intro line n target hmem hline
    rcases List.mem_cons.mp hmem with heq | hmem
    · obtain ⟨rfl, rfl⟩ := Prod.mk.inj heq
      rcases hcopy.of_included? hline with ⟨rfl, -⟩ | ⟨rfl, -⟩
      · exact .recursive List.mem_cons_self
      · exact .duplicate List.mem_cons_self
    · exact (ih line n target hmem hline).mono (List.suffix_cons _ _).isInfix
  | cut _ _ htarget _ _ hrest ih | inline _ htarget _ _ _ hrest _ ih =>
    intro line n target hmem hline
    rcases List.mem_cons.mp hmem with heq | hmem
    · obtain ⟨rfl, rfl⟩ := Prod.mk.inj heq
      obtain rfl := Option.some.inj (htarget.symm.trans hline)
      exact .block (List.prefix_append _ _).isInfix
    · exact (ih line n target hmem hline).mono (List.suffix_append _ _).isInfix

/-- No include of a known file is left in a header that is being expanded. -/
theorem none_left {limit : Option Int}
    (h : Expands index limit depth chain origin number lines before rows after) {name : String}
    (hname : name ∈ chain) :
    ∀ n copy, .source name n copy ∈ rows → index.included? copy.render = none := by
  induction h with
  | done => simp
  | keep hcopy hrest ih =>
    intro n copy hmem
    rcases List.mem_cons.mp hmem with heq | hmem
    · obtain ⟨-, -, rfl⟩ := Row.source.inj heq
      exact hcopy.included?_render
    · exact ih hname n copy hmem
  | cut hlimit hdepth hline hchain hnew hrest ih =>
    intro n copy hmem
    rcases List.mem_append.mp hmem with hmem | hmem
    · -- what is cut off is none of the headers that are being expanded
      rcases List.mem_cons.mp (source_mem_blockRows hmem) with heq | hmem
      · cases heq
      · obtain ⟨_, _, -, heq⟩ := mem_copyRows hmem
        obtain ⟨rfl, -, -⟩ := Row.source.inj heq
        exact absurd hname hchain
    · exact ih hname n copy hmem
  | inline hdepth hline hchain hnew hbody hrest ihbody ihrest =>
    intro n copy hmem
    rcases List.mem_append.mp hmem with hmem | hmem
    · exact ihbody (List.mem_append_left _ hname) n copy (source_mem_blockRows hmem)
    · exact ihrest hname n copy hmem

/-- The lines of a header that is expanded unfold it. -/
theorem unfolds {limit : Option Int} {file : TextFile}
    (h : Expands index limit depth (chain ++ [file.name]) file.name 1
      (headerLines file) before rows after) :
    Unfolds index file (Row.complete rows) := by
  constructor
  · intro line n target hmem hline
    refine (h.replaced (blankPragmaLine line) n target (mem_zipIdx_headerLines hmem) ?_).complete
    rw [Index.included?_blankPragmaLine, hline]
  · intro n copy hmem
    exact h.none_left (List.mem_append_right _ List.mem_cons_self) n copy
      (Row.mem_of_mem_complete hmem)

/-- **A header that is inlined is cut off, or it is expanded and all that it includes is
inlined.** -/
theorem cutOrExpanded {limit : Int}
    (h : Expands index (some limit) depth chain origin number lines before rows after)
    (hchain : chain ⊆ before) :
    ∀ file, index.Holds file → file.name ∈ Row.opened rows →
      CutOrExpanded index limit rows after file := by
  induction h with
  | done => simp
  | keep hcopy hrest ih =>
    intro file hfile hopened
    exact (ih hchain file hfile hopened).mono (List.suffix_cons _ _).isInfix (List.Subset.refl _)
  | cut hlimit hdepth hline hc hnew hrest ih =>
    obtain rfl := Option.some.inj hlimit
    intro file hfile hopened
    simp only [Row.opened_append, Row.opened_blockRows, opened_cutRows, List.cons_append,
      List.nil_append] at hopened
    rcases List.mem_cons.mp hopened with hname | hopened
    · rw [CutOrExpanded, hname]
      refine Or.inl (List.mem_append_left _ ((complete_infix_blockRows _ _ _ _).subset ?_))
      exact Row.mem_complete_of_not_isBlank List.mem_cons_self rfl
    · exact (ih (List.subset_append_of_subset_left _ hchain) file hfile hopened).mono
        (List.suffix_append _ _).isInfix (List.Subset.refl _)
  | @inline _ chain origin number _ _ before _ _ body rows header hdepth hline hc hnew hbody hrest
      ihbody ihrest =>
    intro file hfile hopened
    have hinside : chain ++ [header.name] ⊆ before ++ [header.name] :=
      List.append_subset.mpr ⟨List.subset_append_of_subset_left _ hchain,
        List.subset_append_right _ _⟩
    have hgrown : chain ⊆ before ++ [header.name] := List.subset_append_of_subset_left _ hchain
    simp only [Row.opened_append, Row.opened_blockRows, List.cons_append] at hopened
    rcases List.mem_cons.mp hopened with hname | hopened
    · obtain rfl := hfile.eq (Index.holds_of_included? hline) hname
      refine Or.inr ⟨⟨Row.complete body, ?_, hbody.wellNested.complete, hbody.unfolds⟩,
        fun target htarget => ?_⟩
      · exact (blockOf_prefix_blockRows origin number file.name body).isInfix.trans
          (List.prefix_append _ _).isInfix
      · obtain ⟨line, hmem, htarget⟩ := Index.includes_iff_headerLines.mp htarget
        exact hrest.before_subset (hbody.mem_after hinside line hmem target htarget)
    · rcases List.mem_append.mp hopened with hopened | hopened
      · have hblock := (complete_infix_blockRows origin number header.name body).trans
          (List.prefix_append _ rows).isInfix
        exact (ihbody hinside file hfile hopened).complete.mono hblock hrest.before_subset
      · exact (ihrest (List.Subset.trans hgrown hbody.before_subset) file hfile hopened).mono
          (List.suffix_append _ _).isInfix (List.Subset.refl _)

end Expands

/-! ## Chains of includes -/

/-- The path is a chain of includes through different files, which starts at the source and ends at
the file. -/
structure LeadsTo (index : Index) (source : TextFile) (path : List TextFile) (file : TextFile) :
    Prop where
  edges : (source :: path).IsChain index.Includes
  ends : (source :: path).getLast? = some file
  nodup : (path.map (·.name)).Nodup

namespace LeadsTo

variable {index : Index} {source file : TextFile} {path : List TextFile}

theorem start (source : TextFile) : LeadsTo index source [] source :=
  ⟨.singleton source, rfl, List.nodup_nil⟩

theorem enter (h : LeadsTo index source path file) {target : TextFile}
    (hedge : index.Includes file target) (hnew : target.name ∉ path.map (·.name)) :
    LeadsTo index source (path ++ [target]) target := by
  refine ⟨?_, ?_, ?_⟩
  · rw [← List.cons_append, List.isChain_append]
    refine ⟨h.edges, .singleton target, fun last hlast next hnext => ?_⟩
    obtain rfl := Option.some.inj (h.ends.symm.trans hlast)
    obtain rfl := Option.some.inj hnext
    exact hedge
  · rw [← List.cons_append, List.getLast?_concat]
  · rw [List.map_append]
    exact (List.perm_append_singleton target.name _).nodup_iff.mpr
      (List.nodup_cons.mpr ⟨hnew, h.nodup⟩)

end LeadsTo

/-- Chains of one include more than the limit lead from a source to the file. -/
def Index.Beyond (index : Index) (sources : List TextFile) (limit : Int) (file : TextFile) : Prop :=
  ∃ source ∈ sources, ∃ path, LeadsTo index source path file ∧ (path.length : Int) = limit + 1

theorem Index.Beyond.mono {index : Index} {sources more : List TextFile} {limit : Int}
    {file : TextFile} (h : index.Beyond sources limit file) (hsources : sources ⊆ more) :
    index.Beyond more limit file := by
  obtain ⟨source, hsource, hpath⟩ := h
  exact ⟨source, hsources hsource, hpath⟩

theorem tooDeep_mem_blockRows {origin key name : String} {number : Nat} {bound : Int}
    {body : List Row} (h : .tooDeep bound name ∈ blockRows origin number key body) :
    .tooDeep bound name ∈ body := by
  simpa using Row.mem_of_mem_blockRows h

/-- **A header is cut off only at the end of a chain of one include more than the limit.** -/
theorem Expands.beyond {index : Index} {limit depth : Int} {chain : List String} {origin : String}
    {number : Nat} {lines : List Line} {before after : List String} {rows : List Row}
    (h : Expands index (some limit) depth chain origin number lines before rows after)
    {source file : TextFile} {path : List TextFile} (hpath : LeadsTo index source path file)
    (hchain : path.map (·.name) = chain) (hlength : depth = path.length) (hlimit : depth ≤ limit)
    (hlines : ∀ line ∈ lines, ∀ target, index.included? line = some target →
      index.Includes file target) :
    ∀ bound key, .tooDeep bound key ∈ rows →
      ∃ target, index.Holds target ∧ target.name = key ∧ index.Beyond [source] limit target := by
  induction h generalizing file path with
  | done => simp
  | keep hcopy hrest ih =>
    intro bound key hrow
    rcases List.mem_cons.mp hrow with heq | hrow
    · cases heq
    · exact ih hpath hchain hlength hlimit (List.forall_mem_cons.mp hlines).2 bound key hrow
  | @cut _ _ _ _ _ _ _ _ _ _ header hbound hdepth hline hc hnew hrest ih =>
    obtain ⟨hedge, hlater⟩ := List.forall_mem_cons.mp hlines
    intro bound key hrow
    rcases List.mem_append.mp hrow with hrow | hrow
    · rcases List.mem_cons.mp (tooDeep_mem_blockRows hrow) with heq | hrow
      · -- the header is one include beyond a file that is not too deep
        have hheader := hpath.enter (hedge header hline) (by rwa [hchain])
        obtain rfl := Option.some.inj hbound
        refine ⟨header, Index.holds_of_included? hline, (Row.tooDeep.inj heq).2.symm, source,
          List.mem_cons_self, _, hheader, ?_⟩
        rw [List.length_append, List.length_singleton]
        omega
      · obtain ⟨_, _, -, heq⟩ := mem_copyRows hrow
        cases heq
    · exact ih hpath hchain hlength hlimit hlater bound key hrow
  | @inline _ _ _ _ _ _ _ _ _ _ _ header hdepth hline hc hnew hbody hrest ihbody ihrest =>
    obtain ⟨hedge, hlater⟩ := List.forall_mem_cons.mp hlines
    intro bound key hrow
    rcases List.mem_append.mp hrow with hrow | hrow
    · have hheader := hpath.enter (hedge header hline) (by rwa [hchain])
      refine ihbody hheader (by rw [List.map_append, hchain]; rfl) ?_ (hdepth limit rfl)
        (fun line hmem target htarget => Index.includes_iff_headerLines.mpr ⟨line, hmem, htarget⟩)
        bound key (tooDeep_mem_blockRows hrow)
      rw [List.length_append, List.length_singleton]
      omega
    · exact ihrest hpath hchain hlength hlimit hlater bound key hrow

theorem Index.holds_of_isChain {index : Index} {source : TextFile} {path : List TextFile}
    (h : (source :: path).IsChain index.Includes) : ∀ file ∈ path, index.Holds file := by
  induction path generalizing source with
  | nil => simp
  | cons file path ih =>
    obtain ⟨hedge, hpath⟩ := List.isChain_cons_cons.mp h
    exact List.forall_mem_cons.mpr ⟨hedge.holds, ih hpath⟩

/-- All files on a chain of includes are expanded, if what is inlined is cut off or expanded. -/
theorem expandedIn_of_isChain {index : Index} {limit : Int} {rows : List Row}
    (hheaders : ∀ file, index.Holds file → file.name ∈ Row.opened rows →
      CutOrExpanded index limit rows (Row.opened rows) file)
    {source : TextFile} (hsource : ∀ target, index.Includes source target →
      target.name ∈ Row.opened rows)
    {path : List TextFile} (hpath : (source :: path).IsChain index.Includes)
    (huncut : ∀ file ∈ path, .tooDeep limit file.name ∉ rows) :
    ∀ file ∈ path, ExpandedIn index rows file := by
  induction path generalizing source with
  | nil => simp
  | cons file path ih =>
    obtain ⟨hedge, hpath⟩ := List.isChain_cons_cons.mp hpath
    obtain ⟨hfile, huncut⟩ := List.forall_mem_cons.mp huncut
    obtain ⟨hexpanded, htargets⟩ :=
      (hheaders file hedge.holds (hsource file hedge)).resolve_left hfile
    exact List.forall_mem_cons.mpr ⟨hexpanded, ih htargets hpath huncut⟩

/-! ## All sources -/

theorem Bundle.lines_infix_chunkRows {chunks : List Chunk} {c : Chunk} (hc : c ∈ chunks) :
    c.lines <:+: chunkRows chunks := by
  induction chunks with
  | nil => cases hc
  | cons first chunks ih =>
    obtain ⟨n, hrows⟩ := chunkRows_cons first chunks
    rw [hrows]
    rcases List.mem_cons.mp hc with rfl | hc
    · exact (List.prefix_append _ _).isInfix
    · exact (ih hc).trans ((List.suffix_append _ _).trans (List.suffix_append _ _)).isInfix

theorem Bundle.tooDeep_mem_chunkRows {chunks : List Chunk} {bound : Int} {key : String}
    (h : .tooDeep bound key ∈ chunkRows chunks) : ∃ c ∈ chunks, .tooDeep bound key ∈ c.rows := by
  rcases mem_chunkRows.mp h with heq | ⟨c, hc, hrow⟩
  · cases heq
  · rcases List.mem_cons.mp hrow with heq | hrow
    · cases heq
    · exact ⟨c, hc, Row.mem_of_mem_complete hrow⟩

namespace ExpandsAll

variable {index : Index} {limit : Int} {files : List TextFile} {before : List String}
  {chunks : List Chunk}

theorem beyond (h : ExpandsAll index (some limit) files before chunks) (hlimit : 0 ≤ limit) :
    ∀ c ∈ chunks, ∀ bound key, .tooDeep bound key ∈ c.rows →
      ∃ target, index.Holds target ∧ target.name = key ∧ index.Beyond files limit target := by
  induction h with
  | nil => simp
  | @cons file _ _ _ _ _ hfile hrest ih =>
    refine List.forall_mem_cons.mpr ⟨fun bound key hrow => ?_, fun c hc bound key hrow => ?_⟩
    · obtain ⟨target, hholds, hname, hbeyond⟩ := hfile.beyond (.start file) rfl rfl hlimit
        (fun line hline target htarget => ⟨line, hline, htarget⟩) bound key hrow
      exact ⟨target, hholds, hname, hbeyond.mono (by simp)⟩
    · obtain ⟨target, hholds, hname, hbeyond⟩ := ih c hc bound key hrow
      exact ⟨target, hholds, hname, hbeyond.mono (List.subset_cons_self _ _)⟩

/-- Each chunk starts from the headers inlined before it. -/
theorem inlined_subset {limit : Option Int} (h : ExpandsAll index limit files before chunks) :
    ∀ c ∈ chunks, c.inlined ⊆ before ++ Row.opened (chunks.map (·.rows)).flatten := by
  induction h with
  | nil => simp
  | @cons _ _ before after rows chunks hfile hrest ih =>
    rw [List.map_cons, List.flatten_cons, Row.opened_append, ← List.append_assoc,
      ← hfile.inlines.after_eq]
    exact List.forall_mem_cons.mpr ⟨List.subset_append_left _ _, ih⟩

theorem cutOrExpanded (h : ExpandsAll index (some limit) files before chunks) :
    ∀ c ∈ chunks, ∀ file, index.Holds file → file.name ∈ Row.opened c.rows →
      CutOrExpanded index limit c.rows c.inlined file := by
  induction h with
  | nil => simp
  | cons hfile hrest ih =>
    exact List.forall_mem_cons.mpr ⟨hfile.cutOrExpanded (List.nil_subset _), ih⟩

theorem exists_chunk (h : ExpandsAll index (some limit) files before chunks) :
    ∀ source ∈ files, ∃ c ∈ chunks, ∀ target, index.Includes source target →
      target.name ∈ c.inlined := by
  induction h with
  | nil => simp
  | cons hfile hrest ih =>
    refine List.forall_mem_cons.mpr ⟨⟨_, List.mem_cons_self, ?_⟩, fun source hsource => ?_⟩
    · rintro target ⟨line, hline, htarget⟩
      exact hfile.mem_after (List.nil_subset _) line hline target htarget
    · obtain ⟨c, hc, htargets⟩ := ih source hsource
      exact ⟨c, List.mem_cons_of_mem _ hc, htargets⟩

/-- The rows of all chunks expand each chain of includes on which no header is cut off. -/
theorem expandedIn (h : ExpandsAll index (some limit) files [] chunks) {source : TextFile}
    (hsource : source ∈ files) {path : List TextFile}
    (hpath : (source :: path).IsChain index.Includes)
    (huncut : ∀ file ∈ path, .tooDeep limit file.name ∉ Bundle.chunkRows chunks) :
    ∀ file ∈ path, ExpandedIn index (Bundle.chunkRows chunks) file := by
  have hinlined : ∀ c ∈ chunks, c.inlined ⊆ Row.opened (Bundle.chunkRows chunks) := by
    rw [Bundle.opened_chunkRows]
    exact h.inlined_subset
  refine expandedIn_of_isChain (fun file hfile hopened => ?_)
    (fun target htarget => ?_) hpath huncut
  · rw [Bundle.opened_chunkRows, Row.opened_flatten, List.flatMap_map, List.mem_flatMap] at hopened
    obtain ⟨c, hc, hopened⟩ := hopened
    have hlines : Row.complete c.rows <:+: c.lines := (List.suffix_cons _ _).isInfix
    exact (h.cutOrExpanded c hc file hfile hopened).complete.mono
      (hlines.trans (Bundle.lines_infix_chunkRows hc)) (hinlined c hc)
  · obtain ⟨c, hc, htargets⟩ := h.exists_chunk source hsource
    exact hinlined c hc (htargets target htarget)

end ExpandsAll

/-- A source that includes two headers, and these include each other. -/
def shortcutProgram : List TextFile :=
  [⟨"main.c", "#include \"a.h\"\n#include \"b.h\"\n"⟩, ⟨"a.h", "#include \"b.h\"\n"⟩,
    ⟨"b.h", "#include \"a.h\"\n"⟩]

/-- The limit cuts off a header to which a chain of includes leads that is not longer than the
limit: the header is first met at the end of a longer one. -/
theorem short_chain_expanded_fails :
    ¬ ∀ (tag : String) (files : List TextFile) (limit : Int), 0 ≤ limit →
      ∀ source ∈ sourcesOf tag files,
      ∀ path : List TextFile, (source :: path).IsChain (Index.ofFiles files).Includes →
        (path.length : Int) ≤ limit → ∀ file, path.getLast? = some file →
          ExpandedIn (Index.ofFiles files) (Bundle.ofFiles tag files limit).rows file := by
  intro h
  have hedge : (Index.ofFiles shortcutProgram).Includes
      ⟨"main.c", "#include \"a.h\"\n#include \"b.h\"\n"⟩ ⟨"b.h", "#include \"a.h\"\n"⟩ :=
    ⟨"#include \"b.h\"".toList, by decide, by decide⟩
  obtain ⟨body, hblock, -, hunfolds⟩ := h "c" shortcutProgram 1 (by decide) _ (by decide) [_]
    (.cons_cons hedge (.singleton _)) (by decide) _ rfl
  have hbody : body ⊆ (Bundle.ofFiles "c" shortcutProgram 1).rows := fun row hrow =>
    hblock.subset (List.mem_cons_of_mem _ (List.mem_cons_of_mem _ (List.mem_append_left _ hrow)))
  cases hunfolds.replaced "#include \"a.h\"".toList 1 ⟨"a.h", "#include \"b.h\"\n"⟩ (by decide)
    (by decide) with
  | recursive hrow => exact absurd (hbody hrow) (by decide)
  | duplicate hrow => exact absurd (hbody hrow) (by decide)
  | block hinside =>
    have hend : .lineIs 2 "b.h" ∈ body := hinside.subset (by simp [blockRows])
    exact absurd (hbody hend) (by decide)

/-- **The limit cuts a header off only at the end of a chain of one include more than the limit, and
expands each chain of includes on which no header is cut off**, in whatever order the includes are
met.  So it expands each chain to none of whose headers such a longer chain leads. -/
theorem bundle_expands_uncut_chains (tag : String) (files : List TextFile) (limit : Int)
    (hlimit : 0 ≤ limit) :
    (∀ bound key, .tooDeep bound key ∈ (Bundle.ofFiles tag files limit).rows →
      ∃ file, (Index.ofFiles files).Holds file ∧ file.name = key ∧
        (Index.ofFiles files).Beyond (sourcesOf tag files) limit file) ∧
    ∀ source ∈ sourcesOf tag files, ∀ path : List TextFile,
      (source :: path).IsChain (Index.ofFiles files).Includes →
        ((∀ file ∈ path, .tooDeep limit file.name ∉ (Bundle.ofFiles tag files limit).rows) →
          ∀ file ∈ path, ExpandedIn (Index.ofFiles files)
            (Bundle.ofFiles tag files limit).rows file) ∧
        ((∀ file ∈ path, ¬ (Index.ofFiles files).Beyond (sourcesOf tag files) limit file) →
          ∀ file ∈ path, ExpandedIn (Index.ofFiles files)
            (Bundle.ofFiles tag files limit).rows file) := by
  cases hb : Bundle.ofFiles tag files limit with
  | verbatim given => simp [Bundle.rows, Bundle.sourcesOf_eq_nil_of_verbatim hb]
  | unit sources chunks =>
    obtain ⟨order, horder, hexpands⟩ := Bundle.expandsAll_of_nonneg hb hlimit
    have hbeyond : ∀ bound key, .tooDeep bound key ∈ Bundle.chunkRows chunks →
        ∃ file, (Index.ofFiles files).Holds file ∧ file.name = key ∧
          (Index.ofFiles files).Beyond (sourcesOf tag files) limit file := by
      intro bound key hrow
      obtain ⟨c, hc, hrow⟩ := Bundle.tooDeep_mem_chunkRows hrow
      obtain ⟨file, hholds, hname, hfile⟩ := hexpands.beyond hlimit c hc bound key hrow
      exact ⟨file, hholds, hname, hfile.mono fun source hsource => (horder source).mp hsource⟩
    refine ⟨hbeyond, fun source hsource path hpath => ?_⟩
    have hexpanded := hexpands.expandedIn ((horder source).mpr hsource) hpath
    refine ⟨hexpanded, fun hnear => hexpanded fun file hfile hrow => ?_⟩
    obtain ⟨found, hholds, hname, hfar⟩ := hbeyond limit file.name hrow
    obtain rfl := hholds.eq (Index.holds_of_isChain hpath file hfile) hname
    exact hnear found hfile hfar

theorem bundle_expands_uncut_chains_shortcutProgram :
    (0 : Int) ≤ 1 ∧ .tooDeep 1 "b.h" ∈ (Bundle.ofFiles "c" shortcutProgram 1).rows ∧
      (∃ file, file.name = "b.h" ∧
        (Index.ofFiles shortcutProgram).Beyond (sourcesOf "c" shortcutProgram) 1 file) ∧
      ExpandedIn (Index.ofFiles shortcutProgram) (Bundle.ofFiles "c" shortcutProgram 1).rows
        ⟨"a.h", "#include \"b.h\"\n"⟩ := by
  have hcut : .tooDeep 1 "b.h" ∈ (Bundle.ofFiles "c" shortcutProgram 1).rows := by decide
  have hedge : (Index.ofFiles shortcutProgram).Includes
      ⟨"main.c", "#include \"a.h\"\n#include \"b.h\"\n"⟩ ⟨"a.h", "#include \"b.h\"\n"⟩ :=
    ⟨"#include \"a.h\"".toList, by decide, by decide⟩
  obtain ⟨hbeyond, hexpanded⟩ := bundle_expands_uncut_chains "c" shortcutProgram 1 (by decide)
  obtain ⟨file, -, hname, hfile⟩ := hbeyond 1 "b.h" hcut
  have hpath := (hexpanded _ (by decide) [_] (.cons_cons hedge (.singleton _))).1 (by decide)
  exact ⟨by decide, hcut, ⟨file, hname, hfile⟩, hpath _ List.mem_cons_self⟩

end Amalgam
