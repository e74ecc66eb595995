import Amalgam.Proofs.Attribution
import Amalgam.Proofs.Blocks
import Amalgam.Proofs.Recursion
import Mathlib.Data.List.Nodup

/-!
# How often a source is put out

A source has a chunk of its own.  Nothing keeps it from being inlined as well: includes are looked
up among all files, and the headers inlined so far do not count the chunks.

* `Row.starts` — how often the text of a file starts in rows, which is where a line directive names
  its line one.
* `Bundle.starts_rows` — the text of a file starts once for each of its chunks and once for each of
  its blocks.
* `source_put_out_once_fails` — a source can be put out twice.
* `bundle_copies_source` — a source has exactly one chunk and at most one block, and a block only if
  includes lead to it from a source.
-/

set_option autoImplicit false

namespace Amalgam

/-! ## Starts -/

/-- How often the text of the file starts. -/
def Row.starts (name : String) (rows : List Row) : Nat := rows.count (.lineIs 1 name)

namespace Row

variable {name : String}

/-- The line directive of a file starts that file. -/
theorem starts_lineIs (file : String) : starts name [.lineIs 1 file] = [file].count name := by
  by_cases hfile : file = name
  · simp [starts, hfile]
  · simp [starts, hfile]

theorem starts_append (rows more : List Row) :
    starts name (rows ++ more) = starts name rows + starts name more :=
  List.count_append

theorem starts_eq_zero {rows : List Row} (h : .lineIs 1 name ∉ rows) : starts name rows = 0 :=
  List.count_eq_zero.mpr h

theorem starts_complete (rows : List Row) : starts name (complete rows) = starts name rows := by
  obtain ⟨dropped, hrows, hblank⟩ := exists_eq_complete_append rows
  have hdropped : starts name dropped = 0 :=
    starts_eq_zero fun hmem => Bool.noConfusion (hblank _ hmem)
  conv => rhs; rw [hrows]
  rw [starts_append, hdropped, Nat.add_zero]

theorem starts_cutRows (limit : Int) (origin : String) (lines : List Line) :
    starts name (cutRows limit origin lines) = 0 := by
  have hcopy : starts name (copyRows origin 1 lines) = 0 := by
    generalize 1 = number
    induction lines generalizing number with
    | nil => rfl
    | cons line lines ih =>
      have hline : starts name [.source origin number (.plain line)] = 0 := starts_eq_zero (by simp)
      exact (starts_append [_] _).trans (by rw [hline, ih])
  have hfirst : starts name [.tooDeep limit origin] = 0 := starts_eq_zero (by simp)
  exact (starts_append [_] _).trans (by rw [hfirst, hcopy])

/-- A block starts its header once more than its body does. -/
theorem starts_blockRows {number : Nat} (hnumber : 1 ≤ number) (origin key : String)
    (body : List Row) :
    starts name (blockRows origin number key body) = [key].count name + starts name body := by
  have hblock : blockRows origin number key body =
      [.openBlock key] ++ ([.lineIs 1 key] ++
        (complete body ++ [.closeBlock key, .lineIs (number + 1) origin])) :=
    rfl
  have hopen : starts name [.openBlock key] = 0 := starts_eq_zero (by simp)
  have hend : starts name [.closeBlock key, .lineIs (number + 1) origin] = 0 :=
    starts_eq_zero (by simp; omega)
  rw [hblock, starts_append, starts_append, starts_append, starts_complete, starts_lineIs, hopen,
    hend]
  omega

end Row

theorem count_cons_eq (name key : String) (keys : List String) :
    (key :: keys).count name = [key].count name + keys.count name := by
  rw [← List.count_append]
  rfl

variable {index : Index}

/-- An expansion starts a file once for each of its blocks. -/
theorem Expands.starts_eq {limit : Option Int} {depth : Int} {chain : List String} {origin : String}
    {number : Nat} {lines : List Line} {before after : List String} {rows : List Row}
    (h : Expands index limit depth chain origin number lines before rows after)
    (hnumber : 1 ≤ number) (name : String) :
    Row.starts name rows = (Row.opened rows).count name := by
  induction h with
  | done => rfl
  | @keep _ _ origin number _ _ _ _ _ copy hcopy hrest ih =>
    have hrow : Row.starts name [.source origin number copy] = 0 := Row.starts_eq_zero (by simp)
    have hlater := ih (by omega)
    rw [Row.opened_source, ← hlater]
    exact (Row.starts_append [_] _).trans (by rw [hrow, Nat.zero_add])
  | cut hlimit hdepth hline hchain hnew hrest ih =>
    rw [Row.starts_append, Row.starts_blockRows hnumber, Row.starts_cutRows, ih (by omega),
      Row.opened_append, Row.opened_blockRows, opened_cutRows, List.count_append]
    rfl
  | inline hdepth hline hchain hnew hbody hrest ihbody ihrest =>
    rw [Row.starts_append, Row.starts_blockRows hnumber, ihbody (by omega), ihrest (by omega),
      Row.opened_append, Row.opened_blockRows, List.count_append,
      count_cons_eq name _ (Row.opened _)]

theorem starts_expand (ctx : Context) (origin code name : String) :
    Row.starts name (expand index ctx origin code).rows =
      (Row.opened (expand index ctx origin code).rows).count name := by
  by_cases hlimit : ctx.limit < ctx.depth
  · rw [expand_of_limit_lt hlimit, opened_cutRows, Row.starts_cutRows]
    rfl
  · exact (expands_expand (by omega) origin code).starts_eq (by omega) name

theorem starts_expandFiles (ctx : Context) (files : List TextFile) (name : String) :
    ∀ c ∈ expandFiles index ctx files, Row.starts name c.rows = (Row.opened c.rows).count name := by
  induction files generalizing ctx with
  | nil => simp [expandFiles]
  | cons file files ih => exact List.forall_mem_cons.mpr ⟨starts_expand ctx _ _ name, ih _⟩

theorem map_file_expandFiles (ctx : Context) (files : List TextFile) :
    (expandFiles index ctx files).map (·.file) = files := by
  induction files generalizing ctx with
  | nil => rfl
  | cons file files ih => exact congrArg (file :: ·) (ih _)

/-! ## Chunks -/

/-- The files that have a chunk, in order. -/
def Bundle.chunkFiles : Bundle → List TextFile
  | .verbatim _ => []
  | .unit _ chunks => chunks.map (·.file)

theorem Bundle.starts_chunkRows {chunks : List Chunk} {name : String}
    (h : ∀ c ∈ chunks, Row.starts name c.rows = (Row.opened c.rows).count name) :
    Row.starts name (chunkRows chunks) =
      (chunks.map (·.file.name)).count name + (Row.opened (chunkRows chunks)).count name := by
  induction chunks with
  | nil => rfl
  | cons c chunks ih =>
    obtain ⟨hc, hchunks⟩ := List.forall_mem_cons.mp h
    obtain ⟨n, hrows⟩ := chunkRows_cons c chunks
    have hgaps : Row.starts name (List.replicate n .gap) = 0 :=
      Row.starts_eq_zero (by simp [List.mem_replicate])
    have hlines : Row.starts name c.lines =
        [c.file.name].count name + (Row.opened c.rows).count name := by
      rw [Chunk.lines, ← List.singleton_append, Row.starts_append, Row.starts_complete, hc,
        Row.starts_lineIs]
    rw [hrows, Row.starts_append, Row.starts_append, hlines, hgaps, ih hchunks, Row.opened_append,
      Row.opened_append, c.opened_lines, opened_gaps, List.count_append, List.nil_append,
      List.map_cons, count_cons_eq name _ (chunks.map _)]
    omega

/-- **The text of a file starts once for each of its chunks and once for each of its blocks.** -/
theorem Bundle.starts_rows (tag : String) (files : List TextFile) (limit : Int) (name : String) :
    Row.starts name (Bundle.ofFiles tag files limit).rows =
      ((Bundle.ofFiles tag files limit).chunkFiles.map (·.name)).count name +
        (Row.opened (Bundle.ofFiles tag files limit).rows).count name := by
  unfold Bundle.ofFiles
  cases Sources.ofFiles tag files with
  | none => rfl
  | some sources =>
    have hchunks :=
      @starts_expandFiles (Index.ofFiles files) (Context.fresh limit) sources.order name
    rw [Bundle.chunkFiles, List.map_map]
    exact starts_chunkRows hchunks

/-! ## Sources -/

section Names

variable {files : List TextFile} (hnodup : (files.map (·.name)).Nodup)

include hnodup

/-- A name stands for one file. -/
theorem eq_of_name_eq {file file' : TextFile} (hfile : file ∈ files) (hfile' : file' ∈ files)
    (hname : file.name = file'.name) : file = file' :=
  List.inj_on_of_nodup_map hnodup hfile hfile' hname

/-- The sources that are expanded have different names. -/
theorem nodup_order {tag : String} {sources : Sources}
    (h : Sources.ofFiles tag files = some sources) :
    (sources.order.map (·.name)).Nodup := by
  have hnames : ((place files).map (·.file.name)).Nodup := by
    rw [← map_file_place files, List.map_map] at hnodup
    exact hnodup
  unfold Sources.ofFiles at h
  obtain ⟨entry, hentry, rfl⟩ := Option.map_eq_some_iff.mp h
  have hplaced := (List.mem_filter.mp (mem_of_entryAmong hentry)).1
  simp only [Sources.order, List.map_append, List.map_map, List.map_cons, List.map_nil]
  refine List.nodup_append.mpr ⟨?_, by simp, ?_⟩
  · exact hnames.sublist ((List.filter_sublist.trans List.filter_sublist).map _)
  · intro name hname name' hname' heq
    obtain ⟨p, hp, rfl⟩ := List.mem_map.mp hname
    obtain ⟨hp, hposition⟩ := List.mem_filter.mp hp
    -- a secondary source of the name of the entry would be the entry
    have hsame : p = entry := List.inj_on_of_nodup_map hnames (List.mem_filter.mp hp).1 hplaced
      (heq.trans (List.mem_singleton.mp hname'))
    simp [hsame] at hposition

theorem count_chunkFiles {tag : String} {file : TextFile} (hfile : file ∈ sourcesOf tag files)
    (limit : Int) :
    ((Bundle.ofFiles tag files limit).chunkFiles.map (·.name)).count file.name = 1 := by
  unfold Bundle.ofFiles
  cases hs : Sources.ofFiles tag files with
  | none =>
    rw [sourcesOf_eq_nil_of_none hs] at hfile
    cases hfile
  | some sources =>
    have hmem := (mem_order_iff hs file).mpr hfile
    have horder := @map_file_expandFiles (Index.ofFiles files) (Context.fresh limit) sources.order
    have hchunks : (Bundle.unit sources
        (expandFiles (Index.ofFiles files) (Context.fresh limit) sources.order)).chunkFiles =
        sources.order := horder
    show (List.map _ (Bundle.unit sources
      (expandFiles (Index.ofFiles files) (Context.fresh limit) sources.order)).chunkFiles).count
      file.name = 1
    rw [hchunks]
    exact List.count_eq_one_of_mem (nodup_order hnodup hs) (List.mem_map_of_mem hmem)

end Names

/-- A bundle with a negative limit has no blocks. -/
theorem Bundle.nonneg_of_mem_opened {tag : String} {files : List TextFile} {limit : Int}
    {key : String} (h : key ∈ Row.opened (Bundle.ofFiles tag files limit).rows) : 0 ≤ limit := by
  obtain ⟨row, hrow, hkey⟩ := List.mem_filterMap.mp h
  have hopen : row = .openBlock key := by
    cases row with
    | openBlock => simpa [Row.opened?] using hkey
    | source | closeBlock | lineIs | tooDeep | gap => cases hkey
  obtain ⟨done, rest, hsplit⟩ := List.append_of_mem hrow
  rw [hopen] at hsplit
  have hlevel := ((Bundle.hasBlocks tag files limit).1.of_split hsplit).level_le
  omega

/-- Whatever the limit, includes lead from a source to each header that is inlined. -/
theorem Bundle.reached_of_mem_opened {tag : String} {files : List TextFile} {limit : Int}
    {key : String} (h : key ∈ Row.opened (Bundle.ofFiles tag files limit).rows) :
    ∃ file, (Index.ofFiles files).Reaches (sourcesOf tag files) file ∧ file.name = key := by
  have hlimit := nonneg_of_mem_opened h
  unfold Bundle.ofFiles at h
  cases hs : Sources.ofFiles tag files with
  | none =>
    rw [hs] at h
    cases h
  | some sources =>
    rw [hs] at h
    simp only [rows, opened_chunkRows] at h
    simp only [Index.Reaches, ← mem_order_iff hs]
    exact (expandsAll_expandFiles hlimit sources.order []).reached key h

/-- If no file lies too deep, each file to which includes lead from a source is inlined. -/
theorem Bundle.mem_opened_of_reached {tag : String} {files : List TextFile} {limit : Int}
    {file : TextFile} (huncut : Row.Uncut (Bundle.ofFiles tag files limit).rows)
    (h : (Index.ofFiles files).Reaches (sourcesOf tag files) file) :
    file.name ∈ Row.opened (Bundle.ofFiles tag files limit).rows := by
  cases hb : Bundle.ofFiles tag files limit with
  | verbatim given =>
    rw [Bundle.sourcesOf_eq_nil_of_verbatim hb] at h
    obtain ⟨source, hsource, -⟩ := h
    cases hsource
  | unit sources chunks =>
    obtain ⟨order, horder, hexpands⟩ := Bundle.expandsAll_of_uncut hb huncut
    simp only [Index.Reaches, ← horder] at h
    exact (hexpands.mem_opened_iff file.name).mpr ⟨file, h, rfl⟩

/-- A source that includes another one. -/
def utilProgram : List TextFile :=
  [⟨"main.c", "#include \"util.c\"\nint main(void) { return util(); }\n"⟩,
    ⟨"util.c", "int util(void) { return 0; }\n"⟩]

/-- **A source can be put out twice**: as a chunk, and as a block where another source includes
it. -/
theorem source_put_out_once_fails :
    ¬ ∀ (tag : String) (files : List TextFile), (files.map (·.name)).Nodup →
      ∀ file ∈ sourcesOf tag files,
        file ∈ (Bundle.ofFiles tag files Context.defaultLimit).chunkFiles ∧
        file.name ∉ Row.opened (Bundle.ofFiles tag files Context.defaultLimit).rows ∧
        Row.starts file.name (Bundle.ofFiles tag files Context.defaultLimit).rows = 1 := by
  intro h
  have hutil :=
    h "c" utilProgram (by decide) ⟨"util.c", "int util(void) { return 0; }\n"⟩ (by decide)
  have hopened : "util.c" ∈ Row.opened
      (Bundle.ofFiles "c" utilProgram Context.defaultLimit).rows := by decide
  exact hutil.2.1 hopened

/-- **A source has exactly one chunk and at most one block.**  It has a block only if includes lead
to it from a source, and if no file lies too deep exactly then.  So the text of a source to which no
includes lead starts once. -/
theorem bundle_copies_source (tag : String) (files : List TextFile) (limit : Int)
    (hnodup : (files.map (·.name)).Nodup) (file : TextFile) (hfile : file ∈ sourcesOf tag files) :
    ((Bundle.ofFiles tag files limit).chunkFiles.map (·.name)).count file.name = 1 ∧
    (Row.opened (Bundle.ofFiles tag files limit).rows).count file.name ≤ 1 ∧
    Row.starts file.name (Bundle.ofFiles tag files limit).rows =
      1 + (Row.opened (Bundle.ofFiles tag files limit).rows).count file.name ∧
    (file.name ∈ Row.opened (Bundle.ofFiles tag files limit).rows →
      (Index.ofFiles files).Reaches (sourcesOf tag files) file) ∧
    (Row.Uncut (Bundle.ofFiles tag files limit).rows →
      (Index.ofFiles files).Reaches (sourcesOf tag files) file →
        file.name ∈ Row.opened (Bundle.ofFiles tag files limit).rows) ∧
    (¬ (Index.ofFiles files).Reaches (sourcesOf tag files) file →
      Row.starts file.name (Bundle.ofFiles tag files limit).rows = 1) := by
  have hchunk := count_chunkFiles hnodup hfile limit
  have hstarts := Bundle.starts_rows tag files limit file.name
  rw [hchunk] at hstarts
  have honce := (Bundle.opened_nodup_and_subset tag files limit).1
  have hreached : file.name ∈ Row.opened (Bundle.ofFiles tag files limit).rows →
      (Index.ofFiles files).Reaches (sourcesOf tag files) file := by
    intro hopened
    obtain ⟨target, hpath, hname⟩ := Bundle.reached_of_mem_opened hopened
    have hholds := Index.holds_of_transGen hpath.choose_spec.2
    have hmem : file ∈ files := (List.mem_filter.mp hfile).1
    obtain rfl := eq_of_name_eq hnodup hholds.mem_files hmem hname
    exact hpath
  refine ⟨hchunk, List.nodup_iff_count_le_one.mp honce file.name, hstarts, hreached, ?_, ?_⟩
  · intro huncut hpath
    exact Bundle.mem_opened_of_reached huncut hpath
  · intro hunreached
    rw [hstarts, List.count_eq_zero.mpr fun hopened => hunreached (hreached hopened)]

theorem bundle_copies_source_ringProgram :
    (ringProgram.map (·.name)).Nodup ∧ ⟨"util.c", "#include \"b.h\""⟩ ∈ sourcesOf "c" ringProgram ∧
      Row.Uncut (Bundle.ofFiles "c" ringProgram 2).rows ∧
      ¬ (Index.ofFiles ringProgram).Reaches (sourcesOf "c" ringProgram) ⟨"util.c",
        "#include \"b.h\""⟩ ∧
      Row.starts "util.c" (Bundle.ofFiles "c" ringProgram 2).rows = 1 := by
  have hnodup : (ringProgram.map (·.name)).Nodup := by decide
  have hfile : ⟨"util.c", "#include \"b.h\""⟩ ∈ sourcesOf "c" ringProgram := by decide
  have huncut : Row.Uncut (Bundle.ofFiles "c" ringProgram 2).rows := by decide
  have hopened : "util.c" ∉ Row.opened (Bundle.ofFiles "c" ringProgram 2).rows := by decide
  obtain ⟨-, -, -, -, hinlined, honce⟩ := bundle_copies_source "c" ringProgram 2 hnodup _ hfile
  have hunreached := fun hpath => hopened (hinlined huncut hpath)
  exact ⟨hnodup, hfile, huncut, hunreached, honce hunreached⟩

end Amalgam
