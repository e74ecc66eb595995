import Amalgam.Proofs.Attribution
import Amalgam.Proofs.Recursion
import Mathlib.Data.List.Nodup

/-!
# What a bundle depends on

If no two files share a basename, it does not matter where in the list a file stands that is not a
source, and a file that no include can mean does not matter at all.

* `Index.included?_eq_some_iff` — an include means the file with its basename, wherever it stands.
* `Expands.transfer`, `expand_eq_of_agree` — an expansion only looks up the includes that it meets.
* `Sources.order_eq` — the order of the sources depends on nothing but the sources.
* `bundle_ignores_unmentioned` — a bundle is determined by its sources, in their order, and by the
  set of the other files that includes mention.
-/

set_option autoImplicit false

namespace Amalgam

/-! ## Basenames -/

/-- An include in one of the files names a file with this basename. -/
def Mentions (files : List TextFile) (base : String) : Prop :=
  ∃ file ∈ files, ∃ line ∈ splitLines file.content.toList, (quotedInclude? line).map basename =
    some base

instance (files : List TextFile) (base : String) : Decidable (Mentions files base) :=
  inferInstanceAs (Decidable (∃ file ∈ files, ∃ line ∈ splitLines file.content.toList,
    (quotedInclude? line).map basename = some base))

section Basenames

variable {files : List TextFile} (hdistinct : (files.map fun file => basename file.name).Nodup)

/-- Some file is found if there is one with the basename. -/
theorem Index.exists_target? {file : TextFile} (hfile : file ∈ files) {name : String}
    (hbase : basename file.name = basename name) :
    ∃ p, (Index.ofFiles files).target? name = some p := by
  cases htarget : (Index.ofFiles files).target? name with
  | some p => exact ⟨p, rfl⟩
  | none =>
    obtain ⟨p, hp, rfl⟩ := exists_mem_place.mpr hfile
    obtain ⟨-, hnone⟩ := Option.or_eq_none_iff.mp htarget
    have hmiss := List.find?_eq_none.mp hnone p (List.mem_reverse.mpr hp)
    simp [hbase] at hmiss

theorem Index.mem_of_target? {name : String} {p : Placed}
    (h : (Index.ofFiles files).target? name = some p) :
    p.file ∈ files ∧ basename p.file.name = basename name := by
  rcases Option.or_eq_some_iff.mp h with h | ⟨-, h⟩
  · obtain ⟨hp, hname⟩ := mem_of_findLast? h
    exact ⟨exists_mem_place.mp ⟨p, hp, rfl⟩, congrArg basename (by simpa using hname)⟩
  · obtain ⟨hp, hbase⟩ := mem_of_findLast? h
    exact ⟨exists_mem_place.mp ⟨p, hp, rfl⟩, by simpa using hbase⟩

include hdistinct

/-- **An include means the file with its basename**, if no two files share one. -/
theorem Index.included?_eq_some_iff {line : Line} {file : TextFile} :
    (Index.ofFiles files).included? line = some file ↔
      file ∈ files ∧ (quotedInclude? line).map basename = some (basename file.name) := by
  constructor
  · intro h
    obtain ⟨name, p, hquoted, htarget, rfl⟩ := exists_of_included? h
    obtain ⟨hfile, hbase⟩ := mem_of_target? htarget
    exact ⟨hfile, by rw [hquoted, hbase]; rfl⟩
  · rintro ⟨hfile, hquoted⟩
    obtain ⟨name, hname, hbase⟩ := Option.map_eq_some_iff.mp hquoted
    obtain ⟨p, htarget⟩ := exists_target? hfile hbase.symm
    obtain ⟨hp, hpbase⟩ := mem_of_target? htarget
    have hsame : p.file = file := List.inj_on_of_nodup_map hdistinct hp hfile (hpbase.trans hbase)
    simp [included?, hname, htarget, hsame]

end Basenames

/-! ## Two indexes -/

section Transfer

variable {index index' : Index}

/-- What becomes of a line depends on what the line includes. -/
theorem Kept.transfer {chain inlined : List String} {line : Line} {copy : Copy}
    (h : Kept index chain inlined line copy)
    (hline : index.included? line = index'.included? line) :
    Kept index' chain inlined line copy := by
  cases h with
  | plain hplain => exact .plain hplain
  | unresolved hquoted hunknown =>
    have hnone : index'.included? line = none := by
      rw [← hline]
      simp [Index.included?, hquoted, hunknown]
    exact .unresolved hquoted (by simpa [Index.included?, hquoted] using hnone)
  | recursive hfile hc => exact .recursive (hline ▸ hfile) hc
  | duplicate hfile hc hi => exact .duplicate (hline ▸ hfile) hc hi

/-- **An expansion is one in another index as well**, if both mean the same by the includes among
the lines and by those of all headers. -/
theorem Expands.transfer {limit : Option Int} {depth : Int} {chain : List String} {origin : String}
    {number : Nat} {lines : List Line} {before after : List String} {rows : List Row}
    (h : Expands index limit depth chain origin number lines before rows after)
    (hheaders : ∀ file, index.Holds file → ∀ line ∈ headerLines file,
      index.included? line = index'.included? line)
    (hlines : ∀ line ∈ lines, index.included? line = index'.included? line) :
    Expands index' limit depth chain origin number lines before rows after := by
  induction h with
  | done => exact .done
  | keep hcopy hrest ih =>
    obtain ⟨hhere, hlater⟩ := List.forall_mem_cons.mp hlines
    exact .keep (hcopy.transfer hhere) (ih hlater)
  | cut hlimit hdepth hline hchain hnew hrest ih =>
    obtain ⟨hhere, hlater⟩ := List.forall_mem_cons.mp hlines
    exact .cut hlimit hdepth (hhere ▸ hline) hchain hnew (ih hlater)
  | inline hdepth hline hchain hnew hbody hrest ihbody ihrest =>
    obtain ⟨hhere, hlater⟩ := List.forall_mem_cons.mp hlines
    have hinside := ihbody (hheaders _ (Index.holds_of_included? hline))
    exact .inline hdepth (hhere ▸ hline) hchain hnew hinside (ihrest hlater)

variable (hheaders : ∀ file, index.Holds file → ∀ line ∈ headerLines file,
  index.included? line = index'.included? line)

include hheaders

theorem expand_eq_of_agree (ctx : Context) (origin code : String)
    (hlines : ∀ line ∈ splitLines code.toList, index.included? line = index'.included? line) :
    expand index ctx origin code = expand index' ctx origin code := by
  by_cases hcut : ctx.limit < ctx.depth
  · rw [expand_of_limit_lt hcut, expand_of_limit_lt hcut]
  · have hdepth : ctx.depth ≤ ctx.limit := by omega
    have hexpands := (@expands_expand index ctx hdepth origin code).transfer hheaders hlines
    obtain ⟨hrows, hinlined⟩ := hexpands.deterministic (expands_expand hdepth origin code)
    exact Expanded.ext hrows hinlined

theorem expandFiles_eq_of_agree (ctx : Context) (files : List TextFile)
    (hfiles : ∀ file ∈ files, ∀ line ∈ splitLines file.content.toList,
      index.included? line = index'.included? line) :
    expandFiles index ctx files = expandFiles index' ctx files := by
  induction files generalizing ctx with
  | nil => rfl
  | cons file files ih =>
    obtain ⟨hfile, hlater⟩ := List.forall_mem_cons.mp hfiles
    rw [expandFiles, expandFiles, expand_eq_of_agree hheaders ctx file.name file.content hfile,
      ih _ hlater]

end Transfer

/-! ## The order of the sources -/

theorem nodup_position_place (files : List TextFile) : ((place files).map (·.position)).Nodup := by
  rw [place, List.map_map]
  have hpositions : files.zipIdx.map Prod.snd = List.range' 0 files.length :=
    List.zipIdx_map_snd 0 files
  exact hpositions ▸ List.nodup_range'

theorem map_file_sources (tag : String) (files : List TextFile) :
    ((place files).filter fun p => isSourceOf tag p.file.name).map (·.file) =
      sourcesOf tag files := by
  conv => rhs; rw [sourcesOf, ← map_file_place files, List.filter_map]
  rfl

/-- A file with its position in each of two lists. -/
structure PlacedTwice where
  first : Nat
  second : Nat
  file : TextFile
  deriving DecidableEq

namespace PlacedTwice

def inFirst (z : PlacedTwice) : Placed := ⟨z.first, z.file⟩

def inSecond (z : PlacedTwice) : Placed := ⟨z.second, z.file⟩

/-- Two lists of the same files, wherever these are placed, come from one. -/
theorem exists_of_map_file_eq {ps qs : List Placed} (h : ps.map (·.file) = qs.map (·.file)) :
    ∃ zs : List PlacedTwice, ps = zs.map inFirst ∧ qs = zs.map inSecond := by
  induction ps generalizing qs with
  | nil =>
    obtain rfl := List.map_eq_nil_iff.mp h.symm
    exact ⟨[], rfl, rfl⟩
  | cons p ps ih =>
    obtain ⟨q, qs, rfl, hfile, hfiles⟩ := List.map_eq_cons_iff.mp h.symm
    obtain ⟨zs, rfl, rfl⟩ := ih hfiles.symm
    refine ⟨⟨p.position, q.position, p.file⟩ :: zs, rfl, ?_⟩
    simp [inSecond, ← hfile]

/-- The entry among files that are placed twice. -/
def chosen? (zs : List PlacedTwice) : Option PlacedTwice :=
  (zs.find? fun z => isMainName (basename z.file.name)).or
    ((zs.find? fun z => definesMain z.file.content.toList).or zs.head?)

theorem mem_of_chosen? {zs : List PlacedTwice} {z : PlacedTwice} (h : chosen? zs = some z) :
    z ∈ zs := by
  rcases Option.or_eq_some_iff.mp h with h | ⟨-, h⟩
  · exact List.mem_of_find?_eq_some h
  · rcases Option.or_eq_some_iff.mp h with h | ⟨-, h⟩
    · exact List.mem_of_find?_eq_some h
    · exact List.mem_of_head? h

section OnePlace

variable {place : PlacedTwice → Placed} (hplace : ∀ z, (place z).file = z.file)
  {zs : List PlacedTwice}

include hplace

/-- The entry is chosen by the files, not by their places. -/
theorem entryAmong_map : entryAmong (zs.map place) = (chosen? zs).map place := by
  simp only [entryAmong, chosen?, List.find?_map, List.head?_map, Option.map_or, Function.comp_def,
    hplace]

/-- The order is that of the files, with the entry moved to the end. -/
theorem order_of_ofFiles {tag : String} {files : List TextFile} {sources : Sources}
    (h : Sources.ofFiles tag files = some sources)
    (hzs : (Amalgam.place files).filter (fun p => isSourceOf tag p.file.name) = zs.map place) :
    ∃ z, chosen? zs = some z ∧
      sources.order = (zs.filter fun z' => z' ≠ z).map (·.file) ++ [z.file] := by
  have hnodup : (zs.map fun z => (place z).position).Nodup := by
    have hpositions :
        (((Amalgam.place files).filter fun p => isSourceOf tag p.file.name).map
          (·.position)).Nodup :=
      (nodup_position_place files).sublist (List.filter_sublist.map _)
    rw [hzs, List.map_map] at hpositions
    exact hpositions
  simp only [Sources.ofFiles, hzs, entryAmong_map hplace] at h
  obtain ⟨entry, hentry, rfl⟩ := Option.map_eq_some_iff.mp h
  obtain ⟨z, hz, rfl⟩ := Option.map_eq_some_iff.mp hentry
  refine ⟨z, hz, ?_⟩
  have hmem := mem_of_chosen? hz
  have hsame : ∀ z' ∈ zs, ((place z').position != (place z).position) = decide (z' ≠ z) := by
    intro z' hz'
    by_cases heq : z' = z
    · simp [heq]
    · have hne : (place z').position ≠ (place z).position := fun hposition =>
        heq (List.inj_on_of_nodup_map hnodup hz' hmem hposition)
      simp [heq, hne]
  simp only [Sources.order, List.map_append, List.filter_map, List.map_map, Function.comp_def,
    hplace, List.filter_congr hsame, List.map_cons, List.map_nil]

end OnePlace

end PlacedTwice

/-- **The order of the sources depends on the sources only.** -/
theorem Sources.order_eq {tag : String} {files files' : List TextFile} {sources sources' : Sources}
    (h : Sources.ofFiles tag files = some sources) (h' : Sources.ofFiles tag files' = some sources')
    (hsame : sourcesOf tag files = sourcesOf tag files') : sources.order = sources'.order := by
  obtain ⟨zs, hzs, hzs'⟩ := PlacedTwice.exists_of_map_file_eq
    ((map_file_sources tag files).trans (hsame.trans (map_file_sources tag files').symm))
  obtain ⟨z, hentry, horder⟩ := PlacedTwice.order_of_ofFiles (fun _ => rfl) h hzs
  obtain ⟨z', hentry', horder'⟩ := PlacedTwice.order_of_ofFiles (fun _ => rfl) h' hzs'
  obtain rfl := Option.some.inj (hentry.symm.trans hentry')
  rw [horder, horder']

/-! ## Bundles -/

section Agreement

variable {tag : String} {files files' : List TextFile}
  (hdistinct : (files.map fun file => basename file.name).Nodup)
  (hdistinct' : (files'.map fun file => basename file.name).Nodup)
  (hsources : sourcesOf tag files = sourcesOf tag files')
  (hmentioned : ∀ file, isSourceOf tag file.name = false →
    Mentions (files ++ files') (basename file.name) →
    (file ∈ files ↔ file ∈ files'))

include hsources hmentioned

/-- A file that is mentioned stands in both lists or in none. -/
theorem mem_iff_of_mentions {file : TextFile}
    (h : Mentions (files ++ files') (basename file.name)) :
    file ∈ files ↔ file ∈ files' := by
  cases hsource : isSourceOf tag file.name with
  | false => exact hmentioned file hsource h
  | true =>
    have hmem : file ∈ sourcesOf tag files ↔ file ∈ sourcesOf tag files' := by rw [hsources]
    simpa [sourcesOf, hsource] using hmem

include hdistinct hdistinct'

/-- Both lists mean the same by every include in one of the files. -/
theorem included?_eq_of_mem {file : TextFile} (hfile : file ∈ files) :
    ∀ line ∈ splitLines file.content.toList,
      (Index.ofFiles files).included? line = (Index.ofFiles files').included? line := by
  intro line hline
  refine Option.ext fun target => ?_
  rw [Index.included?_eq_some_iff hdistinct, Index.included?_eq_some_iff hdistinct']
  refine and_congr_left fun hquoted => mem_iff_of_mentions hsources hmentioned ?_
  exact ⟨file, List.mem_append_left _ hfile, line, hline, hquoted⟩

theorem included?_eq_of_holds {file : TextFile} (hfile : (Index.ofFiles files).Holds file) :
    ∀ line ∈ headerLines file,
      (Index.ofFiles files).included? line = (Index.ofFiles files').included? line := by
  rw [headerLines_eq]
  intro line hline
  obtain ⟨original, horiginal, rfl⟩ := List.mem_map.mp hline
  rw [Index.included?_blankPragmaLine, Index.included?_blankPragmaLine]
  exact included?_eq_of_mem hdistinct hdistinct' hsources hmentioned hfile.mem_files original
    horiginal

end Agreement

/-- **A bundle is determined by its sources and by the other files that includes mention.**  Two
lists of files with different basenames that have the same sources in the same order, and the same
files among those that are no sources and that an include in either list mentions, give the same
bundle. -/
theorem bundle_ignores_unmentioned (tag : String) (files files' : List TextFile) (limit : Int)
    (hdistinct : (files.map fun file => basename file.name).Nodup)
    (hdistinct' : (files'.map fun file => basename file.name).Nodup)
    (hsource : sourcesOf tag files ≠ []) (hsources : sourcesOf tag files = sourcesOf tag files')
    (hmentioned : ∀ file, isSourceOf tag file.name = false →
      Mentions (files ++ files') (basename file.name) →
      (file ∈ files ↔ file ∈ files')) :
    (Bundle.ofFiles tag files limit).file tag = (Bundle.ofFiles tag files' limit).file tag := by
  unfold Bundle.ofFiles
  cases hs : Sources.ofFiles tag files with
  | none => exact absurd (sourcesOf_eq_nil_of_none hs) hsource
  | some sources =>
    cases hs' : Sources.ofFiles tag files' with
    | none => exact absurd (hsources.trans (sourcesOf_eq_nil_of_none hs')) hsource
    | some sources' =>
      have hheaders :=
        fun file => @included?_eq_of_holds tag files files' hdistinct hdistinct' hsources hmentioned
          file
      have hchunks :=
        expandFiles_eq_of_agree hheaders (Context.fresh limit) sources.order fun file hfile =>
          included?_eq_of_mem hdistinct hdistinct' hsources hmentioned
            (List.mem_filter.mp ((mem_order_iff hs file).mp hfile)).1
      have hsame : expandFiles (Index.ofFiles files) (Context.fresh limit) sources.order =
          expandFiles (Index.ofFiles files') (Context.fresh limit) sources'.order :=
        hchunks.trans (by rw [Sources.order_eq hs hs' hsources])
      exact congrArg (fun chunks => TextFile.mk (Language.bundleName tag)
        (String.ofList (Row.text (Bundle.chunkRows chunks)))) hsame

/-- Two sources, and a header below a directory that includes another one. -/
def tidyProgram : List TextFile :=
  [⟨"main.c", "#include \"lib/a.h\"\nint main(void);\n"⟩, ⟨"inc/a.h", "#include \"b.h\"\n"⟩,
    ⟨"util.c", "#include \"b.h\"\n"⟩, ⟨"b.h", "int b;\n"⟩]

/-- The same program with its headers in other places, and more files. -/
def untidyProgram : List TextFile :=
  [⟨"b.h", "int b;\n"⟩, ⟨"notes.txt", "nothing\n"⟩,
    ⟨"main.c", "#include \"lib/a.h\"\nint main(void);\n"⟩,
    ⟨"util.c", "#include \"b.h\"\n"⟩, ⟨"c.h", "#include \"a.h\"\n"⟩,
    ⟨"inc/a.h", "#include \"b.h\"\n"⟩]

theorem bundle_ignores_unmentioned_tidyProgram :
    (tidyProgram.map fun file => basename file.name).Nodup ∧
      (untidyProgram.map fun file => basename file.name).Nodup ∧ sourcesOf "c" tidyProgram ≠ [] ∧
      sourcesOf "c" tidyProgram = sourcesOf "c" untidyProgram ∧
      (∀ file, isSourceOf "c" file.name = false →
        Mentions (tidyProgram ++ untidyProgram) (basename file.name) →
        (file ∈ tidyProgram ↔ file ∈ untidyProgram)) ∧
      (Bundle.ofFiles "c" tidyProgram 1).file "c" =
        (Bundle.ofFiles "c" untidyProgram 1).file "c" := by
  have hdistinct : (tidyProgram.map fun file => basename file.name).Nodup := by decide
  have hdistinct' : (untidyProgram.map fun file => basename file.name).Nodup := by decide
  have hsource : sourcesOf "c" tidyProgram ≠ [] := by decide
  have hsources : sourcesOf "c" tidyProgram = sourcesOf "c" untidyProgram := by decide
  have hboth : ∀ file ∈ tidyProgram ++ untidyProgram, isSourceOf "c" file.name = false →
      Mentions (tidyProgram ++ untidyProgram) (basename file.name) →
      (file ∈ tidyProgram ↔ file ∈ untidyProgram) := by decide
  have hmentioned : ∀ file, isSourceOf "c" file.name = false →
      Mentions (tidyProgram ++ untidyProgram) (basename file.name) →
      (file ∈ tidyProgram ↔ file ∈ untidyProgram) := by
    intro file hheader hfile
    refine ⟨fun hmem => ?_, fun hmem => ?_⟩
    · exact (hboth file (List.mem_append_left _ hmem) hheader hfile).mp hmem
    · exact (hboth file (List.mem_append_right _ hmem) hheader hfile).mpr hmem
  exact ⟨hdistinct, hdistinct', hsource, hsources, hmentioned,
    bundle_ignores_unmentioned "c" tidyProgram untidyProgram 1 hdistinct hdistinct' hsource hsources
    hmentioned⟩

end Amalgam
