import Amalgam.Proofs.Bracketing
import Amalgam.Proofs.Choice
import Amalgam.Proofs.Copies
import Amalgam.Proofs.Idempotence
import Amalgam.Proofs.NamePattern

/-!
# Which source comes last

The sources of a language are divided into one entry and the others, by their positions: files that
agree in name and content are different sources.

* `Divides` — the entry and the others are the sources, each once; `ChoosesEntry` — which source is
  the entry.
* `Chunk.text` — what is put out for one source; `Bundle.text_chunkRows` — the text of a bundle is
  the texts of its chunks with two newlines between them.
* `bundle_selects_entry` — the sources are divided in this way, and a bundle has one chunk for each
  of them, with the entry at the end.
-/

set_option autoImplicit false

namespace Amalgam

/-! ## Dividing the sources -/

/-- The file is a source of the language. -/
def IsSource (tag : String) (file : TextFile) : Prop :=
  HasExtension (sourceExtensions tag) file.name

/-- The file is named after `main`, in whatever folder. -/
def NamedMain (file : TextFile) : Prop := IsMainFile (basename file.name)

/-- The text of the file defines a main function. -/
def HasMain (file : TextFile) : Prop := definesMain file.content.toList = true

/-- The positions of the entry and of the others are those of the sources, and each is there
once. -/
structure Divides (tag : String) (files : List TextFile) (sources : Sources) : Prop where
  standing : ∀ p ∈ sources.secondary ++ [sources.entry], StandsIn files (IsSource tag) p
  covers : ∀ i file, files[i]? = some file → IsSource tag file →
    i ∈ (sources.secondary ++ [sources.entry]).map (·.position)
  nodup : ((sources.secondary ++ [sources.entry]).map (·.position)).Nodup
  in_order : (sources.secondary.map (·.position)).Pairwise (· < ·)
  no_header : ∀ p ∈ sources.secondary ++ [sources.entry],
    ¬ HasExtension headerExtensions p.file.name

/-- The entry is the first source that is named after `main`; if there is none, the first that
defines a main function; and if there is none either, the first of all. -/
structure ChoosesEntry (tag : String) (files : List TextFile) (entry : Placed) : Prop where
  named : (∃ file ∈ files, IsSource tag file ∧ NamedMain file) →
    IsFirst files (fun file => IsSource tag file ∧ NamedMain file) entry
  defining : (∀ file ∈ files, IsSource tag file → ¬ NamedMain file) →
    (∃ file ∈ files, IsSource tag file ∧ HasMain file) →
      IsFirst files (fun file => IsSource tag file ∧ HasMain file) entry
  fallback : (∀ file ∈ files, IsSource tag file → ¬ NamedMain file ∧ ¬ HasMain file) →
    IsFirst files (IsSource tag) entry

/-- The sources of the language with their positions. -/
def placedSources (tag : String) (files : List TextFile) : List Placed :=
  (place files).filter fun p => isSourceOf tag p.file.name

section Selection

variable {tag : String} {files : List TextFile}

theorem mem_placedSources_iff {p : Placed} :
    p ∈ placedSources tag files ↔ StandsIn files (IsSource tag) p := by
  rw [placedSources, List.mem_filter, mem_place_iff, isSourceOf_iff]
  exact ⟨fun h => ⟨h.1, h.2⟩, fun h => ⟨h.here, h.holds⟩⟩

theorem placedSources_eq_nil_iff :
    placedSources tag files = [] ↔ ∀ file ∈ files, ¬ IsSource tag file := by
  rw [List.eq_nil_iff_forall_not_mem]
  simp only [mem_placedSources_iff]
  constructor
  · intro h file hfile hsource
    obtain ⟨i, hi⟩ := List.mem_iff_getElem?.mp hfile
    exact h ⟨i, file⟩ ⟨hi, hsource⟩
  · intro h p hp
    exact h p.file hp.mem hp.holds

theorem ofFiles_eq_none_iff : Sources.ofFiles tag files = none ↔
    ∀ file ∈ files, ¬ IsSource tag file := by
  unfold Sources.ofFiles
  rw [Option.map_eq_none_iff, entryAmong_eq_none_iff]
  exact placedSources_eq_nil_iff

theorem divides {entry : Placed} (hentry : entry ∈ placedSources tag files) :
    Divides tag files ⟨entry, (placedSources tag files).filter fun p =>
      p.position != entry.position⟩ := by
  have hsorted : (placedSources tag files).Pairwise fun p q => p.position < q.position :=
    (pairwise_place files).sublist List.filter_sublist
  have hsecondary : ∀ p ∈ (placedSources tag files).filter (fun p => p.position != entry.position),
      StandsIn files (IsSource tag) p ∧ p.position ≠ entry.position := by
    intro p hp
    obtain ⟨hsource, hposition⟩ := List.mem_filter.mp hp
    exact ⟨mem_placedSources_iff.mp hsource, by simpa using hposition⟩
  have hstanding : ∀ p ∈ (placedSources tag files).filter (fun p => p.position != entry.position) ++
      [entry], StandsIn files (IsSource tag) p := by
    intro p hp
    rcases List.mem_append.mp hp with hp | hp
    · exact (hsecondary p hp).1
    · rw [List.mem_singleton.mp hp]
      exact mem_placedSources_iff.mp hentry
  have horder : (((placedSources tag files).filter fun p => p.position != entry.position).map
      (·.position)).Pairwise (· < ·) :=
    List.pairwise_map.mpr (hsorted.sublist List.filter_sublist)
  refine ⟨hstanding, fun i file hfile hsource => ?_, ?_, horder, fun p hp => ?_⟩
  · -- the position is that of the entry, or the file is another source
    rw [List.map_append, List.mem_append]
    by_cases hposition : i = entry.position
    · exact Or.inr (by simp [hposition])
    · refine Or.inl (List.mem_map.mpr ⟨⟨i, file⟩,
        List.mem_filter.mpr ⟨?_, by simpa using hposition⟩, rfl⟩)
      exact mem_placedSources_iff.mpr ⟨hfile, hsource⟩
  · rw [List.map_append, List.nodup_append]
    refine ⟨horder.imp Nat.ne_of_lt, by simp, fun i hi j hj => ?_⟩
    obtain ⟨p, hp, rfl⟩ := List.mem_map.mp hi
    obtain rfl : j = entry.position := by simpa using hj
    exact (hsecondary p hp).2
  · exact not_hasExtension_header (hstanding p hp).holds

/-- A search among the sources finds the first with a property, or there is none. -/
theorem find?_placedSources_cases {test : TextFile → Bool} {Q : TextFile → Prop}
    (htest : ∀ file, test file = true ↔ Q file) :
    (∃ p, (placedSources tag files).find? (fun p => test p.file) = some p ∧
      IsFirst files (fun file => IsSource tag file ∧ Q file) p) ∨
    ((placedSources tag files).find? (fun p => test p.file) = none ∧
      ∀ file ∈ files, IsSource tag file → ¬ Q file) := by
  have hboth : ∀ file : TextFile, decide (isSourceOf tag file.name = true ∧ test file = true) =
      true ↔ IsSource tag file ∧ Q file := by
    intro file
    rw [decide_eq_true_eq, isSourceOf_iff, htest]
    rfl
  have hfind : (placedSources tag files).find? (fun p => test p.file) =
      (place files).find? fun p => decide (isSourceOf tag p.file.name = true ∧
        test p.file = true) :=
    List.find?_filter
  rw [hfind]
  cases hfound : (place files).find?
      (fun p => decide (isSourceOf tag p.file.name = true ∧ test p.file = true)) with
  | some p => exact Or.inl ⟨p, rfl, isFirst_of_find? hboth hfound⟩
  | none =>
    refine Or.inr ⟨rfl, fun file hfile hsource hQ => ?_⟩
    exact (find?_place_eq_none_iff hboth).mp hfound file hfile ⟨hsource, hQ⟩

/-- The first of all sources. -/
theorem isFirst_of_head? {p : Placed} (h : (placedSources tag files).head? = some p) :
    IsFirst files (IsSource tag) p := by
  have htrue : ∀ _ : TextFile, true = true ↔ True := fun _ => iff_of_true rfl trivial
  have hfind : (placedSources tag files).find? (fun _ => true) =
      (placedSources tag files).head? := by
    cases placedSources tag files <;> rfl
  rcases find?_placedSources_cases htrue with ⟨q, hq, hfirst⟩ | ⟨hnone, -⟩
  · rw [hfind, h] at hq
    obtain rfl := Option.some.inj hq
    simpa only [and_true] using hfirst
  · rw [hfind, h] at hnone
    cases hnone

theorem choosesEntry {entry : Placed} (h : entryAmong (placedSources tag files) = some entry) :
    ChoosesEntry tag files entry := by
  unfold entryAmong at h
  rcases find?_placedSources_cases fun file => isMainName_iff (basename file.name) with
    ⟨p, hfound, hfirst⟩ | ⟨hnone, hunnamed⟩
  · rw [hfound, Option.some_or] at h
    obtain rfl := Option.some.inj h
    have hnamed := hfirst.holds.2
    refine ⟨fun _ => hfirst, fun hunnamed => ?_, fun hneither => ?_⟩
    · exact absurd hnamed (hunnamed _ hfirst.mem hfirst.holds.1)
    · exact absurd hnamed (hneither _ hfirst.mem hfirst.holds.1).1
  · rw [hnone, Option.none_or] at h
    have hnot : ¬ ∃ file ∈ files, IsSource tag file ∧ NamedMain file :=
      fun ⟨file, hfile, hsource, hnamed⟩ => hunnamed file hfile hsource hnamed
    rcases find?_placedSources_cases fun file => (Iff.rfl : _ ↔ HasMain file) with
      ⟨p, hfound, hfirst⟩ | ⟨hnone, hundefined⟩
    · rw [hfound, Option.some_or] at h
      obtain rfl := Option.some.inj h
      refine ⟨fun hnamed => absurd hnamed hnot, fun _ _ => hfirst, fun hneither => ?_⟩
      exact absurd hfirst.holds.2 (hneither _ hfirst.mem hfirst.holds.1).2
    · rw [hnone, Option.none_or] at h
      refine ⟨fun hnamed => absurd hnamed hnot, fun _ hdefined => ?_, fun _ => isFirst_of_head? h⟩
      obtain ⟨file, hfile, hsource, hmain⟩ := hdefined
      exact absurd hmain (hundefined file hfile hsource)

end Selection

/-! ## The text of a chunk -/

/-- Nothing is lost where a newline follows the row: it does not end in one, and if it is empty it
is blank. -/
structure Row.Whole (row : Row) : Prop where
  last : row.render.getLast? ≠ some '\n'
  blank : row.render = [] → row.isBlank = true

namespace Row.Whole

/-- The end of its text decides. -/
theorem of_append {row : Row} {front closing : List Char} (h : row.render = front ++ closing)
    (hne : closing ≠ []) (hlast : closing.getLast? ≠ some '\n') : row.Whole := by
  constructor
  · rw [h, List.getLast?_append_of_ne_nil front hne]
    exact hlast
  · intro hempty
    rw [h] at hempty
    exact absurd (List.append_eq_nil_iff.mp hempty).2 hne

theorem copied {line : Line} (h : '\n' ∉ line) (file : String) (number : Nat) :
    Whole (.source file number (.plain line)) := by
  constructor
  · exact fun hlast => h (List.mem_of_getLast? hlast)
  · intro hempty
    obtain rfl : line = [] := hempty
    rfl

theorem lineIs (number : Nat) (file : String) : Whole (.lineIs number file) := by
  have hrender : (Row.lineIs number file).render =
      (['#', 'l', 'i', 'n', 'e', ' '] ++
        (Nat.toDigits 10 number ++ ' ' :: '"' :: escapeLiteral file.toList)) ++ ['"'] := by
    show (positionDirective number file).toList = _
    rw [positionDirective_toList]
    simp
  exact of_append hrender (by decide) (by decide)

theorem blockRows {body : List Row} (h : ∀ row ∈ body, row.Whole) (origin : String) (number : Nat)
    (key : String) :
    ∀ row ∈ blockRows origin number key body, row.Whole := by
  intro row hrow
  rcases mem_of_mem_blockRows hrow with hrow | rfl | rfl | ⟨n, file, rfl⟩
  · exact h row hrow
  · exact @of_append (.openBlock key) _ " ===".toList rfl (by decide) (by decide)
  · exact @of_append (.closeBlock key) _ " ===".toList rfl (by decide) (by decide)
  · exact lineIs n file

theorem cutRows {lines : List Line} (h : ∀ line ∈ lines, '\n' ∉ line) (limit : Int)
    (origin : String) :
    ∀ row ∈ cutRows limit origin lines, row.Whole := by
  have hmark : Whole (.tooDeep limit origin) :=
    @of_append _ _ " */".toList rfl (by decide) (by decide)
  refine List.forall_mem_cons.mpr ⟨hmark, fun row hrow => ?_⟩
  obtain ⟨number, line, hline, rfl⟩ := mem_copyRows hrow
  exact copied (h line hline) origin number

end Row.Whole

theorem Kept.whole {index : Index} {chain inlined : List String} {line : Line} {copy : Copy}
    (h : Kept index chain inlined line copy) (hline : '\n' ∉ line) (file : String) (number : Nat) :
    (Row.source file number copy).Whole := by
  cases h with
  | plain => exact .copied hline file number
  | unresolved h =>
    constructor
    · exact fun hlast => hline (List.mem_of_getLast? hlast)
    · intro hempty
      obtain rfl : line = [] := hempty
      cases h
  | recursive => exact @Row.Whole.of_append _ _ "\" */".toList rfl (by decide) (by decide)
  | duplicate => exact @Row.Whole.of_append _ _ "\" */".toList rfl (by decide) (by decide)

theorem newline_not_mem_headerLines {file : TextFile} : ∀ line ∈ headerLines file, '\n' ∉ line :=
  fun _ hline => not_mem_of_mem_cutAt hline

section Whole

variable {index : Index}

theorem Expands.whole {limit : Option Int} {depth : Int} {chain : List String} {origin : String}
    {number : Nat} {lines : List Line} {before after : List String} {rows : List Row}
    (h : Expands index limit depth chain origin number lines before rows after)
    (hlines : ∀ line ∈ lines, '\n' ∉ line) : ∀ row ∈ rows, row.Whole := by
  induction h with
  | done => simp
  | keep hcopy hrest ih =>
    obtain ⟨hline, hlater⟩ := List.forall_mem_cons.mp hlines
    exact List.forall_mem_cons.mpr ⟨hcopy.whole hline _ _, ih hlater⟩
  | cut hlimit hdepth hline hchain hnew hrest ih =>
    refine List.forall_mem_append.mpr ⟨?_, ih (List.forall_mem_cons.mp hlines).2⟩
    exact .blockRows (.cutRows newline_not_mem_headerLines _ _) _ _ _
  | inline hdepth hline hchain hnew hbody hrest ihbody ihrest =>
    have hinside := ihbody newline_not_mem_headerLines
    exact List.forall_mem_append.mpr ⟨.blockRows hinside _ _ _,
      ihrest (List.forall_mem_cons.mp hlines).2⟩

theorem expand_whole (ctx : Context) (origin code : String) :
    (expand index ctx origin code).rows ≠ [] ∧
    ∀ row ∈ (expand index ctx origin code).rows, row.Whole := by
  have hlines : ∀ line ∈ splitLines code.toList, '\n' ∉ line :=
    fun _ hline => not_mem_of_mem_cutAt hline
  by_cases hlimit : ctx.limit < ctx.depth
  · rw [expand_of_limit_lt hlimit]
    exact ⟨List.cons_ne_nil _ _, .cutRows hlines _ _⟩
  · have hexpands := @expands_expand index ctx (by omega) origin code
    exact ⟨hexpands.rows_ne_nil (cutAt_ne_nil _), hexpands.whole hlines⟩

theorem expandFiles_whole (ctx : Context) (files : List TextFile) :
    ∀ c ∈ expandFiles index ctx files, c.rows ≠ [] ∧ ∀ row ∈ c.rows, row.Whole := by
  induction files generalizing ctx with
  | nil => simp [expandFiles]
  | cons file files ih =>
    exact List.forall_mem_cons.mpr ⟨expand_whole ctx file.name file.content, ih _⟩

end Whole

/-- What is put out for one source: the directive that names its first line, and its expanded text,
which ends in a newline. -/
def Chunk.text (c : Chunk) : List Char :=
  (positionDirective 1 c.file.name).toList ++ '\n' :: withFinalNewline (Row.text c.rows)

theorem text_append (rows : List Row) {more : List Row} (hmore : more ≠ []) :
    Row.text (rows ++ more) = terminated (rows.map Row.render) ++ Row.text more := by
  induction rows with
  | nil => rfl
  | cons row rows ih =>
    have hne : (rows ++ more).map Row.render ≠ [] := by simp [hmore]
    have hcons : Row.text (row :: (rows ++ more)) = row.render ++ '\n' :: Row.text (rows ++ more) :=
      joinAt_cons row.render hne
    rw [List.cons_append, hcons, ih]
    simp [terminated]

/-- The lines of a chunk are those of its text. -/
theorem Chunk.terminated_lines {c : Chunk} (hne : c.rows ≠ []) (h : ∀ row ∈ c.rows, row.Whole) :
    terminated (c.lines.map Row.render) = c.text := by
  have hrows :=
    terminated_complete_of_getLast? hne fun row hrow => ⟨(h row hrow).last, (h row hrow).blank⟩
  have hlines : c.lines.map Row.render =
      (positionDirective 1 c.file.name).toList :: (Row.complete c.rows).map Row.render := rfl
  rw [Chunk.text, ← hrows, hlines]
  simp [terminated]

/-- The text of chunks is the texts of the chunks with two newlines between them. -/
theorem Bundle.text_chunkRows {chunks : List Chunk} (hne : chunks ≠ [])
    (h : ∀ c ∈ chunks, c.rows ≠ [] ∧ ∀ row ∈ c.rows, row.Whole) :
    Row.text (chunkRows chunks) = ['\n', '\n'].intercalate (chunks.map Chunk.text) := by
  induction chunks with
  | nil => exact absurd rfl hne
  | cons c chunks ih =>
    obtain ⟨⟨hrows, hwhole⟩, hlater⟩ := List.forall_mem_cons.mp h
    have hlines := Chunk.terminated_lines hrows hwhole
    cases chunks with
    | nil =>
      have hend : Row.text [.gap] = [] := rfl
      rw [chunkRows, text_append c.lines (List.cons_ne_nil _ _), hlines, hend]
      simp
    | cons c' cs =>
      have hgaps : Row.text (.gap :: .gap :: chunkRows (c' :: cs)) =
          '\n' :: '\n' :: Row.text (chunkRows (c' :: cs)) :=
        text_append [.gap, .gap] (chunkRows_ne_nil _)
      rw [chunkRows, text_append c.lines (List.cons_ne_nil _ _), hlines, hgaps,
        ih (List.cons_ne_nil _ _) hlater,
        List.map_cons, List.map_cons, List.map_cons, List.intercalate_cons_cons]
      simp

/-! ## Bundles -/

theorem Bundle.ofFiles_of_some {tag : String} {files : List TextFile} {sources : Sources}
    (h : Sources.ofFiles tag files = some sources) (limit : Int) :
    Bundle.ofFiles tag files limit =
      .unit sources (expandFiles (Index.ofFiles files) (Context.fresh limit) sources.order) := by
  rw [Bundle.ofFiles, h]
  rfl

/-- **Of the sources of a language one is the entry, and a bundle has one chunk for each source,
with the entry at the end.**  There is no entry if and only if there is no source.  The other
sources keep their order, and the text of the bundle is that of the chunks, each with its own line
directive. -/
theorem bundle_selects_entry (tag : String) (files : List TextFile) (limit : Int) :
    (Sources.ofFiles tag files = none ↔ ∀ file ∈ files, ¬ IsSource tag file) ∧
    ∀ sources, Sources.ofFiles tag files = some sources →
      Divides tag files sources ∧ ChoosesEntry tag files sources.entry ∧
      ∃ chunks, Bundle.ofFiles tag files limit = .unit sources chunks ∧
        chunks.map (·.file) = sources.secondary.map (·.file) ++ [sources.entry.file] ∧
        chunks = expandFiles (Index.ofFiles files) (Context.fresh limit) (chunks.map (·.file)) ∧
        (Bundle.ofFiles tag files limit).content.toList =
          ['\n', '\n'].intercalate (chunks.map Chunk.text) := by
  refine ⟨ofFiles_eq_none_iff, fun sources h => ?_⟩
  have hbundle := Bundle.ofFiles_of_some h limit
  have hchunks := @map_file_expandFiles (Index.ofFiles files) (Context.fresh limit) sources.order
  have hcontent : (Bundle.ofFiles tag files limit).content.toList = ['\n', '\n'].intercalate
      ((expandFiles (Index.ofFiles files) (Context.fresh limit) sources.order).map Chunk.text) := by
    rw [hbundle, Bundle.toList_content_unit]
    refine Bundle.text_chunkRows (fun hnil => ?_) (expandFiles_whole _ _)
    rw [hnil] at hchunks
    simp [Sources.order] at hchunks
  have horder : sources.order = sources.secondary.map (·.file) ++ [sources.entry.file] := by
    simp [Sources.order]
  obtain ⟨entry, hentry, rfl⟩ := Option.map_eq_some_iff.mp h
  refine ⟨divides (mem_of_entryAmong hentry), choosesEntry hentry, _, hbundle, ?_, ?_, hcontent⟩
  · rw [hchunks, horder]
  · rw [hchunks]

/-- Two sources that agree in name and content, a header, and a source that defines a main
function. -/
def twinProgram : List TextFile :=
  [⟨"a.c", "int a;\n"⟩, ⟨"MAIN.H", "int main();\n"⟩, ⟨"a.c", "int a;\n"⟩,
    ⟨"b.C", "int main(void) { return a; }"⟩]

theorem bundle_selects_entry_twinProgram :
    Sources.ofFiles "c" twinProgram =
        some ⟨⟨3, ⟨"b.C", "int main(void) { return a; }"⟩⟩,
          [⟨0, ⟨"a.c", "int a;\n"⟩⟩, ⟨2, ⟨"a.c", "int a;\n"⟩⟩]⟩ ∧
      Divides "c" twinProgram
        ⟨⟨3, ⟨"b.C", "int main(void) { return a; }"⟩⟩,
          [⟨0, ⟨"a.c", "int a;\n"⟩⟩, ⟨2, ⟨"a.c", "int a;\n"⟩⟩]⟩ ∧
      ChoosesEntry "c" twinProgram ⟨3, ⟨"b.C", "int main(void) { return a; }"⟩⟩ := by
  have hsources : Sources.ofFiles "c" twinProgram =
      some ⟨⟨3, ⟨"b.C", "int main(void) { return a; }"⟩⟩,
        [⟨0, ⟨"a.c", "int a;\n"⟩⟩, ⟨2, ⟨"a.c", "int a;\n"⟩⟩]⟩ := by decide +kernel
  obtain ⟨hdivides, hentry, -⟩ := (bundle_selects_entry "c" twinProgram 32).2 _ hsources
  exact ⟨hsources, hdivides, hentry⟩

end Amalgam
