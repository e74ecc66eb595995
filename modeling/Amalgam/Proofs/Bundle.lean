import Amalgam.Proofs.Expansion
import Amalgam.Unit.Bundle

/-!
# The rows of a bundle

* `mem_order_iff` — the files that are expanded one after another are the sources of the language.
* `ExpandsAll` — each of them is expanded outside any header, with the headers inlined up to it.
* `Bundle.expandsAll_of_uncut` — the chunks of a bundle in which no file lies too deep come about in
  this way, without a limit.
-/

set_option autoImplicit false

namespace Amalgam

/-! ## The sources -/

theorem mem_place_iff {files : List TextFile} {p : Placed} :
    p ∈ place files ↔ files[p.position]? = some p.file := by
  unfold place
  rw [List.mem_map]
  constructor
  · rintro ⟨q, hq, rfl⟩
    exact List.mem_zipIdx_iff_getElem?.mp hq
  · intro h
    exact ⟨(p.file, p.position), List.mem_zipIdx_iff_getElem?.mpr h, rfl⟩

theorem map_file_place (files : List TextFile) : (place files).map (·.file) = files := by
  rw [place, List.map_map]
  exact List.zipIdx_map_fst 0 files

/-- A position holds one file. -/
theorem eq_of_position_eq {files : List TextFile} {p q : Placed} (hp : p ∈ place files)
    (hq : q ∈ place files) (h : p.position = q.position) : p = q := by
  rw [mem_place_iff] at hp hq
  rw [h, hq] at hp
  obtain ⟨position, file⟩ := p
  obtain ⟨position', file'⟩ := q
  simp_all

theorem exists_mem_place {files : List TextFile} {file : TextFile} :
    (∃ p ∈ place files, p.file = file) ↔ file ∈ files := by
  constructor
  · rintro ⟨p, hp, rfl⟩
    exact List.mem_of_getElem? (mem_place_iff.mp hp)
  · intro h
    obtain ⟨i, hi⟩ := List.mem_iff_getElem?.mp h
    exact ⟨⟨i, file⟩, mem_place_iff.mpr hi, rfl⟩

theorem mem_of_entryAmong {sources : List Placed} {entry : Placed}
    (h : entryAmong sources = some entry) :
    entry ∈ sources := by
  unfold entryAmong at h
  rcases Option.or_eq_some_iff.mp h with h | ⟨-, h⟩
  · exact List.mem_of_find?_eq_some h
  · rcases Option.or_eq_some_iff.mp h with h | ⟨-, h⟩
    · exact List.mem_of_find?_eq_some h
    · exact List.mem_of_head? h

theorem entryAmong_eq_none_iff {sources : List Placed} :
    entryAmong sources = none ↔ sources = [] := by
  unfold entryAmong
  constructor
  · intro h
    simp only [Option.or_eq_none_iff, List.head?_eq_none_iff] at h
    exact h.2.2
  · rintro rfl
    rfl

/-- The files of the sources in the order in which they are expanded: the entry comes last. -/
def Sources.order (sources : Sources) : List TextFile :=
  (sources.secondary ++ [sources.entry]).map (·.file)

/-- The sources of a language among files. -/
def sourcesOf (tag : String) (files : List TextFile) : List TextFile :=
  files.filter fun file => isSourceOf tag file.name

/-- The sources of a language are expanded, and nothing else is. -/
theorem mem_order_iff {tag : String} {files : List TextFile} {sources : Sources}
    (h : Sources.ofFiles tag files = some sources) (file : TextFile) :
    file ∈ sources.order ↔ file ∈ sourcesOf tag files := by
  rw [sourcesOf, List.mem_filter]
  unfold Sources.ofFiles at h
  obtain ⟨entry, hentry, rfl⟩ := Option.map_eq_some_iff.mp h
  have hmem := List.mem_filter.mp (mem_of_entryAmong hentry)
  unfold Sources.order
  simp only [List.map_append, List.map_cons, List.map_nil, List.mem_append, List.mem_map,
    List.mem_filter, List.mem_singleton, bne_iff_ne, ne_eq]
  constructor
  · rintro (⟨p, ⟨⟨hp, hsource⟩, -⟩, rfl⟩ | rfl)
    · exact ⟨exists_mem_place.mp ⟨p, hp, rfl⟩, hsource⟩
    · exact ⟨exists_mem_place.mp ⟨entry, hmem.1, rfl⟩, hmem.2⟩
  · rintro ⟨hfile, hsource⟩
    obtain ⟨p, hp, rfl⟩ := exists_mem_place.mpr hfile
    by_cases hposition : p.position = entry.position
    · rw [eq_of_position_eq hp hmem.1 hposition]
      exact Or.inr rfl
    · exact Or.inl ⟨p, ⟨⟨hp, hsource⟩, hposition⟩, rfl⟩

theorem sourcesOf_eq_nil_of_none {tag : String} {files : List TextFile}
    (h : Sources.ofFiles tag files = none) : sourcesOf tag files = [] := by
  unfold Sources.ofFiles at h
  rw [Option.map_eq_none_iff, entryAmong_eq_none_iff, List.filter_eq_nil_iff] at h
  rw [sourcesOf, List.filter_eq_nil_iff]
  intro file hfile
  obtain ⟨p, hp, rfl⟩ := exists_mem_place.mpr hfile
  exact h p hp

/-! ## The chunks -/

/-- Files are expanded one after another, outside any header.  The headers inlined at the start are
`before`. -/
inductive ExpandsAll (index : Index) (limit : Option Int) :
    List TextFile → (before : List String) → List Chunk → Prop where
  | nil {before : List String} : ExpandsAll index limit [] before []
  | cons {file : TextFile} {files : List TextFile} {before after : List String} {rows : List Row}
      {chunks : List Chunk}
      (hfile : Expands index limit 0 [] file.name 1
        (splitLines file.content.toList) before rows after)
      (hrest : ExpandsAll index limit files after chunks) :
      ExpandsAll index limit (file :: files) before (⟨file, rows, after⟩ :: chunks)

theorem expandsAll_expandFiles {index : Index} {limit : Int} (hlimit : 0 ≤ limit)
    (files : List TextFile) (inlined : List String) :
    ExpandsAll index (some limit) files inlined
      (expandFiles index { Context.fresh limit with inlined := inlined } files) := by
  induction files generalizing inlined with
  | nil => exact .nil
  | cons file files ih =>
    exact .cons (@expands_expand index
      { Context.fresh limit with inlined := inlined } hlimit file.name file.content) (ih _)

/-- With a negative limit every source lies too deep. -/
theorem nonneg_of_uncut {index : Index} {limit : Int} {files : List TextFile} (hfiles : files ≠ [])
    (h : ∀ c ∈ expandFiles index (Context.fresh limit) files, Row.Uncut c.rows) : 0 ≤ limit := by
  cases files with
  | nil => exact absurd rfl hfiles
  | cons file files =>
    refine Int.not_lt.mp fun hneg => ?_
    have hcut := @expand_of_limit_lt index (Context.fresh limit) hneg file.name file.content
    have hrows := h _ List.mem_cons_self
    simp only [hcut] at hrows
    exact Row.not_uncut_of_mem List.mem_cons_self hrows

namespace ExpandsAll

variable {index : Index} {limit : Option Int} {files : List TextFile} {before : List String}
  {chunks : List Chunk}

theorem unlimited (h : ExpandsAll index limit files before chunks)
    (huncut : ∀ c ∈ chunks, Row.Uncut c.rows) : ExpandsAll index none files before chunks := by
  induction h with
  | nil => exact .nil
  | cons hfile hrest ih =>
    have hrows := huncut _ List.mem_cons_self
    exact .cons (hfile.unlimited hrows) (ih fun c hc => huncut c (List.mem_cons_of_mem _ hc))

/-- The headers inlined at the end are those at the start and the blocks that the chunks open. -/
theorem inlines (h : ExpandsAll index limit files before chunks) :
    Row.Inlines before (chunks.map (·.rows)).flatten
      ((chunks.getLast?.map (·.inlined)).getD before) := by
  induction h with
  | nil => exact .of_opened_eq_nil rfl _
  | @cons file files before after rows chunks hfile hrest ih =>
    have happend := hfile.inlines.append ih
    cases chunks with
    | nil => simpa using happend
    | cons c cs =>
      -- the last chunk is one of the later ones
      have hlast := List.getLast?_eq_some_getLast (List.cons_ne_nil c cs)
      rw [hlast] at happend
      rw [List.getLast?_cons_cons, hlast]
      exact happend

theorem wellNested (h : ExpandsAll index limit files before chunks) :
    ∀ c ∈ chunks, Row.WellNested c.rows := by
  induction h with
  | nil => simp
  | cons hfile hrest ih => exact List.forall_mem_cons.mpr ⟨hfile.wellNested, ih⟩

end ExpandsAll

/-! ## The rows of all chunks -/

theorem Chunk.opened_lines (c : Chunk) : Row.opened c.lines = Row.opened c.rows :=
  Row.opened_complete c.rows

theorem Chunk.wellNested_lines {c : Chunk} (h : Row.WellNested c.rows) : Row.WellNested c.lines :=
  (Row.WellNested.lineIs 1 c.file.name).append h.complete

namespace Bundle

theorem toList_content_unit (sources : Sources) (chunks : List Chunk) :
    (Bundle.unit sources chunks).content.toList = Row.text (Bundle.unit sources chunks).rows :=
  String.toList_ofList

/-- Chunks come one after another with gaps between them. -/
theorem chunkRows_cons (c : Chunk) (chunks : List Chunk) :
    ∃ n, chunkRows (c :: chunks) = c.lines ++ (List.replicate n .gap ++ chunkRows chunks) := by
  cases chunks with
  | nil => exact ⟨0, rfl⟩
  | cons c' cs => exact ⟨2, rfl⟩

theorem chunkRows_ne_nil (chunks : List Chunk) : chunkRows chunks ≠ [] := by
  unfold chunkRows
  split <;> simp

theorem mem_chunkRows {chunks : List Chunk} {row : Row} :
    row ∈ chunkRows chunks ↔ row = .gap ∨ ∃ c ∈ chunks, row ∈ c.lines := by
  induction chunks with
  | nil => simp [chunkRows]
  | cons c chunks ih =>
    obtain ⟨n, hrows⟩ := chunkRows_cons c chunks
    rw [hrows, List.mem_append, List.mem_append, ih]
    constructor
    · rintro (h | h | h | ⟨c', hc', h⟩)
      · exact Or.inr ⟨c, List.mem_cons_self, h⟩
      · exact Or.inl (List.eq_of_mem_replicate h)
      · exact Or.inl h
      · exact Or.inr ⟨c', List.mem_cons_of_mem _ hc', h⟩
    · rintro (h | ⟨c', hc', h⟩)
      · exact Or.inr (Or.inr (Or.inl h))
      · rcases List.mem_cons.mp hc' with rfl | hc'
        · exact Or.inl h
        · exact Or.inr (Or.inr (Or.inr ⟨c', hc', h⟩))

theorem opened_gaps (n : Nat) : Row.opened (List.replicate n .gap) = [] := by
  simp [Row.opened, Row.opened?]

theorem opened_chunkRows (chunks : List Chunk) :
    Row.opened (chunkRows chunks) = Row.opened (chunks.map (·.rows)).flatten := by
  induction chunks with
  | nil => rfl
  | cons c chunks ih =>
    obtain ⟨n, hrows⟩ := chunkRows_cons c chunks
    rw [hrows, Row.opened_append, Row.opened_append, c.opened_lines, opened_gaps, ih,
      List.nil_append, ← Row.opened_append]
    rfl

theorem uncut_of_chunkRows {chunks : List Chunk} (h : Row.Uncut (chunkRows chunks)) :
    ∀ c ∈ chunks, Row.Uncut c.rows := by
  intro c hc
  have hlines : Row.Uncut c.lines :=
    fun row hrow => h row (mem_chunkRows.mpr (Or.inr ⟨c, hc, hrow⟩))
  exact Row.uncut_complete.mp (List.forall_mem_cons.mp hlines).2

theorem wellNested_gaps (n : Nat) : Row.WellNested (List.replicate n .gap) := by
  induction n with
  | zero => exact .nil
  | succ n ih => exact (Row.WellNested.single (by simp) (by simp)).append ih

theorem wellNested_chunkRows {chunks : List Chunk} (h : ∀ c ∈ chunks, Row.WellNested c.rows) :
    Row.WellNested (chunkRows chunks) := by
  induction chunks with
  | nil => exact wellNested_gaps 1
  | cons c chunks ih =>
    obtain ⟨n, hrows⟩ := chunkRows_cons c chunks
    obtain ⟨hc, hchunks⟩ := List.forall_mem_cons.mp h
    rw [hrows]
    exact (Chunk.wellNested_lines hc).append ((wellNested_gaps n).append (ih hchunks))

/-- A bundle is made of chunks unless there is no source. -/
theorem sourcesOf_eq_nil_of_verbatim {tag : String} {files files' : List TextFile} {limit : Int}
    (h : Bundle.ofFiles tag files limit = .verbatim files') : sourcesOf tag files = [] := by
  unfold Bundle.ofFiles at h
  cases hs : Sources.ofFiles tag files with
  | none => exact sourcesOf_eq_nil_of_none hs
  | some sources => rw [hs] at h; cases h

/-- The chunks of a bundle are its sources, expanded one after another. -/
theorem exists_order {tag : String} {files : List TextFile} {limit : Int} {sources : Sources}
    {chunks : List Chunk} (h : Bundle.ofFiles tag files limit = .unit sources chunks) :
    ∃ order, order ≠ [] ∧ (∀ file, file ∈ order ↔ file ∈ sourcesOf tag files) ∧
      expandFiles (Index.ofFiles files) (Context.fresh limit) order = chunks := by
  unfold Bundle.ofFiles at h
  cases hs : Sources.ofFiles tag files with
  | none => rw [hs] at h; cases h
  | some found =>
    rw [hs] at h
    simp only [Bundle.unit.injEq] at h
    obtain ⟨rfl, hchunks⟩ := h
    exact ⟨found.order, by simp [Sources.order], mem_order_iff hs, hchunks⟩

theorem expandsAll_of_nonneg {tag : String} {files : List TextFile} {limit : Int}
    {sources : Sources} {chunks : List Chunk}
    (h : Bundle.ofFiles tag files limit = .unit sources chunks) (hlimit : 0 ≤ limit) :
    ∃ order, (∀ file, file ∈ order ↔ file ∈ sourcesOf tag files) ∧
      ExpandsAll (Index.ofFiles files) (some limit) order [] chunks := by
  obtain ⟨order, -, horder, rfl⟩ := exists_order h
  exact ⟨order, horder, expandsAll_expandFiles hlimit order []⟩

/-- **If no file lies too deep, the sources are expanded one after another without a limit.** -/
theorem expandsAll_of_uncut {tag : String} {files : List TextFile} {limit : Int} {sources : Sources}
    {chunks : List Chunk} (h : Bundle.ofFiles tag files limit = .unit sources chunks)
    (huncut : Row.Uncut (Bundle.ofFiles tag files limit).rows) :
    ∃ order, (∀ file, file ∈ order ↔ file ∈ sourcesOf tag files) ∧
      ExpandsAll (Index.ofFiles files) none order [] chunks := by
  rw [h] at huncut
  have hchunks := uncut_of_chunkRows huncut
  obtain ⟨order, hne, horder, rfl⟩ := exists_order h
  have hlimit := nonneg_of_uncut hne hchunks
  exact ⟨order, horder, (expandsAll_expandFiles hlimit order []).unlimited hchunks⟩

end Bundle

end Amalgam
