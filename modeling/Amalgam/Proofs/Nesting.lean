import Amalgam.Proofs.Blocks
import Amalgam.Proofs.Choice
import Amalgam.Proofs.PragmaOnce
import Amalgam.Proofs.Preparation
import Amalgam.Proofs.Recursion

/-!
# How deep headers nest

A header is expanded by a call inside the call for the file that includes it, and a program has room
for only so many calls inside each other.  Making a bundle comes to its end exactly if none of its
calls lies deeper than that.

* `Row.beforeDeeper?_eq_none_iff` — rows are put out to the end exactly if none of their blocks lies
  too deep.
* `NestWithin` — no call that is made for files lies deeper than the levels there are;
  `noticesBeyond?_eq_none_iff` — files are prepared exactly if this holds.
* `nestWithin_of_limit_lt`, `nestWithin_of_size_le` — it holds if the limit is less than the levels,
  and if there are not more names than levels.
* `not_nestWithin_deepProgram` — but no number of levels is enough for every program.
-/

set_option autoImplicit false

namespace Amalgam

/-! ## Rows that nest too deep -/

/-- **Rows are put out to the end exactly if none of their blocks lies too deep.** -/
theorem Row.beforeDeeper?_eq_none_iff {levels : Nat} {stack : List String}
    (hstack : stack.length ≤ levels) (rows : List Row) :
    beforeDeeper? levels stack rows = none ↔ ∀ b ∈ blocks stack rows, b.2 ≤ levels := by
  induction rows generalizing stack with
  | nil => simp [beforeDeeper?, blocks]
  | cons row rows ih =>
    rw [beforeDeeper?, blocks, List.forall_mem_append]
    split
    case isTrue hdeep =>
      -- only a row that opens a block adds to the stack
      cases row with
      | openBlock key =>
        refine iff_of_false (Option.some_ne_none _) fun hblocks => ?_
        have hlevel : (stack.length + 1 : Int) ≤ levels :=
          hblocks.1 _ (List.mem_singleton.mpr rfl)
        simp only [stackAfter, List.length_append, List.length_singleton] at hdeep
        omega
      | closeBlock key =>
        simp only [stackAfter, List.length_dropLast] at hdeep
        omega
      | source | lineIs | tooDeep | gap => exact absurd hstack (Nat.not_le.mpr hdeep)
    case isFalse hdeep =>
      rw [Option.map_eq_none_iff, ih (Nat.not_lt.mp hdeep)]
      refine (and_iff_right ?_).symm
      cases row with
      | openBlock key =>
        simp only [stackAfter, List.length_append, List.length_singleton] at hdeep
        intro b hb
        obtain rfl := List.mem_singleton.mp hb
        show (stack.length + 1 : Int) ≤ levels
        omega
      | source | closeBlock | lineIs | tooDeep | gap => exact List.forall_mem_nil _

/-- The blocks of an expansion lie at most one level deeper than the limit. -/
theorem HasBlocks.level_le {index : Index} {limit : Int} {stack : List String} {rows : List Row}
    (h : HasBlocks index limit stack rows) : ∀ b ∈ Row.blocks stack rows, b.2 ≤ limit + 1 := by
  induction rows generalizing stack with
  | nil => exact List.forall_mem_nil _
  | cons row rows ih =>
    obtain ⟨hrow, hrows⟩ := h
    refine List.forall_mem_append.mpr ⟨?_, ih hrows⟩
    cases row with
    | openBlock key =>
      intro b hb
      obtain rfl := List.mem_singleton.mp hb
      exact (hrow key rfl).level_le
    | source | closeBlock | lineIs | tooDeep | gap => exact List.forall_mem_nil _

theorem hasBlocks_flatten_rows {index : Index} {limit : Int} {chunks : List Chunk}
    (h : ∀ c ∈ chunks, HasBlocks index limit [] c.rows ∧ Row.WellNested c.rows) :
    HasBlocks index limit [] (chunks.map (·.rows)).flatten := by
  induction chunks with
  | nil => trivial
  | cons c chunks ih =>
    obtain ⟨⟨hblocks, hnested⟩, hlater⟩ := List.forall_mem_cons.mp h
    exact hblocks.append_of_wellNested hnested (ih hlater)

namespace Bundle

variable (tag : String) (files : List TextFile) (limit : Int)

/-- Making a bundle comes to its end exactly if none of its calls lies too deep. -/
theorem noticesBeyond?_eq_none_iff (levels : Nat) (s : Spelling) :
    (Bundle.ofFiles tag files limit).noticesBeyond? levels s = none ↔
      ∀ v ∈ Bundle.visits tag files limit, v.ctx.depth ≤ levels := by
  rw [Bundle.noticesBeyond?, Option.map_eq_none_iff, List.flatMap_def,
    Row.beforeDeeper?_eq_none_iff (Nat.zero_le levels), ← map_visits_block, List.forall_mem_map]
  exact Iff.rfl

/-- The calls that make a bundle lie at most one level deeper than the limit. -/
theorem depth_le_of_mem_visits {v : Visit} (hv : v ∈ Bundle.visits tag files limit) :
    v.ctx.depth ≤ limit + 1 := by
  have hblock : v.block ∈ Row.blocks []
      ((Bundle.ofFiles tag files limit).chunks.map (·.rows)).flatten := by
    rw [← map_visits_block]
    exact List.mem_map_of_mem hv
  unfold Bundle.ofFiles at hblock
  cases hs : Sources.ofFiles tag files with
  | none =>
    rw [hs] at hblock
    cases hblock
  | some sources =>
    rw [hs] at hblock
    have hchunks := @hasBlocks_expandFiles (Index.ofFiles files) limit sources.order []
    exact (hasBlocks_flatten_rows hchunks).level_le v.block hblock

end Bundle

/-! ## Files that are prepared -/

/-- None of the calls that files need lies deeper than the levels there are. -/
def NestWithin (levels : Nat) (language : String) (files : List TextFile) (limit : Int) : Prop :=
  needsBundling language files.length = true →
    ∀ v ∈ Bundle.visits (Language.tag language) files limit, v.ctx.depth ≤ levels

section NestWithin

variable {levels : Nat} {language : String} {files : List TextFile} {limit : Int}

theorem noticesBeyond?_eq_none_iff (s : Spelling) :
    noticesBeyond? levels s language files limit = none ↔
      NestWithin levels language files limit := by
  unfold noticesBeyond? NestWithin
  simp only [needsBundling_tag]
  split
  case isTrue hneeds =>
    rw [Option.map_eq_none_iff, Bundle.noticesBeyond?_eq_none_iff]
    exact ⟨fun h _ => h, fun h => h hneeds⟩
  case isFalse hneeds => exact iff_of_true rfl fun h => absurd h hneeds

/-- A value is come to if none of the calls lies too deep. -/
theorem unlessBeyond_of_nestWithin {α : Type} (h : NestWithin levels language files limit)
    (s : Spelling) (t : Told α) :
    t.unlessBeyond (noticesBeyond? levels s language files limit) = ⟨.ok t.value, t.notices⟩ := by
  rw [(noticesBeyond?_eq_none_iff s).mpr h]
  rfl

theorem unlessBeyond_of_not_nestWithin {α : Type} (h : ¬ NestWithin levels language files limit)
    (s : Spelling) (t : Told α) :
    ∃ notices, t.unlessBeyond (noticesBeyond? levels s language files limit) =
      ⟨.error .nestedTooDeep, notices⟩ := by
  obtain ⟨notices, hnotices⟩ :=
    Option.ne_none_iff_exists'.mp (mt (noticesBeyond?_eq_none_iff s).mp h)
  rw [hnotices]
  exact ⟨notices, rfl⟩

theorem nestWithin_of_limit_lt (h : limit < levels) : NestWithin levels language files limit := by
  intro _ v hv
  have hdepth := Bundle.depth_le_of_mem_visits _ _ _ hv
  omega

theorem nestWithin_of_size_le (h : (Index.ofFiles files).size ≤ levels) :
    NestWithin levels language files limit := by
  intro _ v hv
  have hdepth := (Bundle.simplePath_of_mem_visits _ _ hv).depth_le
  omega

/-- Language and tag make no difference. -/
theorem nestWithin_tag : NestWithin levels (Language.tag language) files limit ↔
    NestWithin levels language files limit := by
  unfold NestWithin
  rw [needsBundling_tag, Language.tag_tag]

end NestWithin

/-! ## Programs that nest deep -/

/-- A line that includes a new header leads to a call for it and to those made inside it. -/
theorem visitsAt_of_included {index : Index} {ctx : Context} {line : Line} {file : TextFile}
    (levels : Nat) (origin : String) (hdepth : ctx.depth ≤ ctx.limit)
    (hline : index.included? line = some file) (hchain : file.name ∉ ctx.chain)
    (hnew : file.name ∉ ctx.inlined) :
    visitsAt index (levels + 1) ctx origin [line] =
      ⟨{ ctx.enter file.name with inlined := ctx.inlined ++ [file.name] }, file⟩ ::
        visitsAt index levels { ctx.enter file.name with inlined := ctx.inlined ++ [file.name] }
          file.name (headerLines file) := by
  rw [visitsAt, if_neg (Int.not_lt.mpr hdepth)]
  simp only [visitsOfLines, List.append_nil, visitsOfLine_of_included hline hchain hnew]

/-- An include of a name as the only line of a text. -/
def includeText (name : String) : String := "#include \"" ++ name ++ "\""

/-- The header at this place of a chain, which includes the next one. -/
def deepHeader (place : Nat) : TextFile :=
  ⟨String.ofList (List.replicate (place + 1) 'h'),
    includeText (String.ofList (List.replicate (place + 2) 'h'))⟩

/-- A source and this many headers, each of which is included by the one before it. -/
def deepProgram (count : Nat) : List TextFile :=
  ⟨"main.c", includeText (deepHeader 0).name⟩ :: (List.range count).map deepHeader

section Chain

variable {count place : Nat}

theorem length_name_deepHeader : (deepHeader place).name.length = place + 1 := by
  simp [deepHeader, String.length_ofList]

theorem deepHeader_name_inj {place' : Nat}
    (h : (deepHeader place).name = (deepHeader place').name) :
    place = place' := by
  have hlength := congrArg String.length h
  simp only [length_name_deepHeader] at hlength
  omega

theorem quotedInclude?_includeText (place : Nat) :
    quotedInclude? (includeText (deepHeader place).name).toList =
      some (deepHeader place).name := by
  refine quotedInclude?_eq_some_iff.mpr ⟨[], [], [' '], [], ?_, nofun, nofun, by simp [Blanks], ?_,
    ?_⟩
  · simp [includeText]
  · intro hempty
    have hlength := @length_name_deepHeader place
    rw [hempty] at hlength
    cases hlength
  · simp [deepHeader, List.mem_replicate]

theorem splitLines_includeText (place : Nat) :
    splitLines (includeText (deepHeader place).name).toList =
      [(includeText (deepHeader place).name).toList] := by
  refine cutAt_of_not_mem ?_
  simp [includeText, deepHeader, List.mem_replicate]

theorem headerLines_deepHeader :
    headerLines (deepHeader place) =
      [blankPragmaLine (includeText (deepHeader (place + 1)).name).toList] := by
  have hcontent : (deepHeader place).content = includeText (deepHeader (place + 1)).name := rfl
  rw [headerLines, hcontent, splitLines_blankPragmaOnce, splitLines_includeText]
  rfl

/-- An include of a header of the chain means the header. -/
theorem included?_deepProgram (h : place < count) :
    (Index.ofFiles (deepProgram count)).included? (includeText (deepHeader place).name).toList =
      some (deepHeader place) := by
  have hmem : deepHeader place ∈ deepProgram count :=
    List.mem_cons_of_mem _ (List.mem_map_of_mem (List.mem_range.mpr h))
  rw [Index.included?, quotedInclude?_includeText, Option.bind_some]
  cases htarget : (Index.ofFiles (deepProgram count)).target? (deepHeader place).name with
  | none => exact absurd rfl ((target?_eq_none_iff.mp htarget).1 _ hmem)
  | some p =>
    have hlast := target?_of_named htarget ⟨_, hmem, rfl⟩
    have hname : p.file.name = (deepHeader place).name := hlast.holds
    rcases List.mem_cons.mp hlast.mem with hfile | hfile
    · -- the name of the source has a point in it
      have hpoint : '.' ∈ (deepHeader place).name.toList := by
        rw [← hname, hfile]
        decide
      simp [deepHeader, List.mem_replicate] at hpoint
    · obtain ⟨place', -, hfile⟩ := List.mem_map.mp hfile
      rw [← hfile] at hname
      rw [Option.map_some, ← hfile, deepHeader_name_inj hname]

theorem deepHeader_not_mem {names : List String} (h : ∀ name ∈ names, name.length ≤ place) :
    (deepHeader place).name ∉ names := by
  intro hmem
  have hlength := h _ hmem
  rw [length_name_deepHeader] at hlength
  omega

/-- From one place of the chain on, calls are made down to its end.  The names before this place are
shorter than those behind it, so none of the headers to come has been seen. -/
theorem exists_mem_visitsAt_deepProgram {rest levels : Nat} (ctx : Context) (origin : String)
    {line : Line} (hcount : place + rest + 1 = count) (hlevels : rest < levels)
    (hline : (Index.ofFiles (deepProgram count)).included? line = some (deepHeader place))
    (hdepth : ctx.depth = place) (hlimit : (count : Int) ≤ ctx.limit + 1)
    (hchain : ∀ name ∈ ctx.chain, name.length ≤ place)
    (hinlined : ∀ name ∈ ctx.inlined, name.length ≤ place) :
    ∃ v ∈ visitsAt (Index.ofFiles (deepProgram count)) levels ctx origin [line],
      v.ctx.depth = count := by
  induction rest generalizing place levels ctx origin line with
  | zero =>
    obtain ⟨levels, rfl⟩ := Nat.exists_eq_succ_of_ne_zero (by omega : levels ≠ 0)
    rw [visitsAt_of_included levels origin (by omega) hline (deepHeader_not_mem hchain)
      (deepHeader_not_mem hinlined)]
    refine ⟨_, List.mem_cons_self .., ?_⟩
    show ctx.depth + 1 = count
    omega
  | succ rest ih =>
    obtain ⟨levels, rfl⟩ := Nat.exists_eq_succ_of_ne_zero (by omega : levels ≠ 0)
    rw [visitsAt_of_included levels origin (by omega) hline (deepHeader_not_mem hchain)
      (deepHeader_not_mem hinlined), headerLines_deepHeader]
    have hnext : (Index.ofFiles (deepProgram count)).included?
        (blankPragmaLine (includeText (deepHeader (place + 1)).name).toList) =
        some (deepHeader (place + 1)) := by
      rw [Index.included?_blankPragmaLine]
      exact included?_deepProgram (by omega)
    have hlonger : ∀ names : List String, (∀ name ∈ names, name.length ≤ place) →
        ∀ name ∈ names ++ [(deepHeader place).name], name.length ≤ place + 1 := by
      intro names hnames
      refine List.forall_mem_append.mpr ⟨fun name hname => Nat.le_succ_of_le (hnames name hname),
        ?_⟩
      intro name hname
      rw [List.mem_singleton.mp hname]
      exact Nat.le_of_eq length_name_deepHeader
    obtain ⟨v, hv, hvdepth⟩ := ih
      { ctx.enter (deepHeader place).name with
        inlined := ctx.inlined ++ [(deepHeader place).name] }
      (deepHeader place).name (by omega) (by omega : rest < levels) hnext
      (by simp [Context.enter, hdepth]) hlimit (hlonger _ hchain) (hlonger _ hinlined)
    exact ⟨v, List.mem_cons_of_mem _ hv, hvdepth⟩

/-- The only source of the chain is the file that includes its first header. -/
theorem sourcesOf_deepProgram :
    sourcesOf "c" (deepProgram count) = [⟨"main.c", includeText (deepHeader 0).name⟩] := by
  have hmain : isSourceOf "c" "main.c" = true := by decide
  have hheaders : ((List.range count).map deepHeader).filter
      (fun file => isSourceOf "c" file.name) = [] := by
    refine List.filter_eq_nil_iff.mpr (List.forall_mem_map.mpr fun place _ => ?_)
    have hpoint : '.' ∉ dropFinalNewline (deepHeader place).name.toList := by
      intro hmem
      have hmem : '.' ∈ (deepHeader place).name.toList := by
        unfold dropFinalNewline at hmem
        split at hmem
        · exact List.dropLast_subset _ hmem
        · exact hmem
      simp [deepHeader, List.mem_replicate] at hmem
    simp [isSourceOf, FileKind.ofName, extension?, hpoint, FileKind.sourceOf]
  rw [sourcesOf, deepProgram, List.filter_cons, hheaders, if_pos hmain]

/-- A chain of headers needs as many levels as it has headers. -/
theorem exists_mem_visits_deepProgram {limit : Int} (hcount : 0 < count)
    (hlimit : (count : Int) ≤ limit + 1) :
    ∃ v ∈ Bundle.visits "c" (deepProgram count) limit, v.ctx.depth = count := by
  obtain ⟨sources, hs⟩ : ∃ sources, Sources.ofFiles "c" (deepProgram count) = some sources := by
    refine Option.ne_none_iff_exists'.mp fun hnone => ?_
    have hsources := sourcesOf_eq_nil_of_none hnone
    rw [sourcesOf_deepProgram] at hsources
    cases hsources
  have horder : ∀ file ∈ sources.order, file = ⟨"main.c", includeText (deepHeader 0).name⟩ := by
    intro file hfile
    rw [mem_order_iff hs, sourcesOf_deepProgram] at hfile
    exact List.mem_singleton.mp hfile
  obtain ⟨first, later, hfirst⟩ :=
    List.exists_cons_of_ne_nil (by simp [Sources.order] : sources.order ≠ [])
  rw [hfirst, List.forall_mem_cons] at horder
  have hlength : (Index.ofFiles (deepProgram count)).files.length = count + 1 := by
    simp [Index.ofFiles, place, deepProgram]
  obtain ⟨v, hv, hdepth⟩ := exists_mem_visitsAt_deepProgram (Context.fresh limit) "main.c"
    (by omega : 0 + (count - 1) + 1 = count)
    (by omega : count - 1 < (Index.ofFiles (deepProgram count)).files.length)
    (included?_deepProgram hcount) rfl hlimit
    (List.forall_mem_nil _) (List.forall_mem_nil _)
  refine ⟨v, ?_, hdepth⟩
  rw [Bundle.visits, hs]
  show v ∈ visitsOfFiles _ _ sources.order
  rw [hfirst, visitsOfFiles, horder.1, visits, splitLines_includeText]
  exact List.mem_append_left _ hv

end Chain

/-- **No number of levels is enough for every program**: a chain of one header more does not fit. -/
theorem not_nestWithin_deepProgram {levels : Nat} {limit : Int} (hlimit : levels ≤ limit) :
    ¬ NestWithin levels "c" (deepProgram (levels + 1)) limit := by
  intro h
  have hneeds : needsBundling "c" (deepProgram (levels + 1)).length = true := by
    refine needsBundling_iff.mpr ⟨Or.inl (by decide +kernel), ?_⟩
    simp [deepProgram]
  obtain ⟨v, hv, hdepth⟩ :=
    @exists_mem_visits_deepProgram (levels + 1) limit (Nat.succ_pos levels) (by omega)
  have htag : Language.tag "c" = "c" := by decide +kernel
  have hle := h hneeds v (by rwa [htag])
  omega

end Amalgam
