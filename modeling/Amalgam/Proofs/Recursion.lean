import Amalgam.Proofs.IncludeGraph
import Mathlib.Data.List.Perm.Subperm

/-!
# The bound on the recursion

An expansion calls itself for each header that it inlines.  It is not the limit on the depth that
ends this: the headers on the way to a call have different names, and so have the headers of all
calls together.

* `visitsAt` — the calls that an expansion makes, each with the context it is made in.
* `map_visitsAt`, `forall_visitsAt` — there is one call for each block, and what entering a header
  keeps holds of the context of every call.
* `Expands.deterministic` — lines can be expanded in one way only.
* `Expands.uncut` — if the limit is not less than the number of names, no file lies too deep.
* `bundle_bounded_by_files` — such a limit has no effect on a bundle, and no bundle takes more calls
  or more levels than there are names.
-/

set_option autoImplicit false

namespace Amalgam

/-! ## Calls -/

/-- A call of the expansion for a header. -/
structure Visit where
  /-- The context in which the lines of the header are expanded. -/
  ctx : Context
  header : TextFile

/-- The block that a call is made for, and its level. -/
def Visit.block (v : Visit) : String × Int := (v.header.name, v.ctx.depth)

/-- The calls that one line leads to; `enter` gives those of a header, given the headers inlined up
to it. -/
def visitsOfLine (index : Index) (chain : List String) (enter : TextFile → List String → List Visit)
    (line : Line) (inlined : List String) : List Visit :=
  match quotedInclude? line with
  | none => []
  | some name =>
    match resolve index chain inlined name with
    | .inline file => enter file (inlined ++ [file.name])
    | _ => []

/-- The calls that the lines of `origin` from line `number` on lead to. -/
def visitsOfLines (index : Index) (chain : List String) (origin : String)
    (inside : TextFile → List String → Expanded) (enter : TextFile → List String → List Visit) :
    (number : Nat) → List Line → List String → List Visit
  | _, [], _ => []
  | number, line :: lines, inlined =>
    visitsOfLine index chain enter line inlined ++
      visitsOfLines index chain origin inside enter (number + 1) lines
        (expandLine index chain origin inside number line inlined).inlined

/-- The calls that `expandAt` makes, in order: each call comes before those made inside it. -/
def visitsAt (index : Index) : (levels : Nat) → Context → (origin : String) → List Line → List Visit
  | levels, ctx, origin, lines =>
    if ctx.limit < ctx.depth then []
    else
      match levels with
      | 0 =>
        visitsOfLines index ctx.chain origin (fun _ inlined => ⟨[], inlined⟩)
          (fun _ _ => []) 1 lines ctx.inlined
      | levels + 1 =>
        let within (file : TextFile) (inlined : List String) : Context :=
          { ctx.enter file.name with inlined := inlined }
        visitsOfLines index ctx.chain origin
          (fun file inlined => expandAt index levels (within file inlined) file.name
            (headerLines file))
          (fun file inlined =>
            ⟨within file inlined, file⟩ ::
              visitsAt index levels (within file inlined) file.name (headerLines file))
          1 lines ctx.inlined

/-- The calls that the expansion of a text makes. -/
def visits (index : Index) (ctx : Context) (origin code : String) : List Visit :=
  visitsAt index index.files.length ctx origin (splitLines code.toList)

/-- The calls that files expanded one after another make. -/
def visitsOfFiles (index : Index) : Context → List TextFile → List Visit
  | _, [] => []
  | ctx, file :: files =>
    visits index ctx file.name file.content ++
      visitsOfFiles index
        { ctx with inlined := (expand index ctx file.name file.content).inlined } files

/-- The calls that making a bundle takes, over all its sources. -/
def Bundle.visits (tag : String) (files : List TextFile) (limit : Int) : List Visit :=
  match Sources.ofFiles tag files with
  | none => []
  | some sources => visitsOfFiles (Index.ofFiles files) (Context.fresh limit) sources.order

section Visits

variable {index : Index} {chain : List String} {enter : TextFile → List String → List Visit}

/-- A line that is kept leads to no call. -/
theorem visitsOfLine_of_kept {line : Line} {inlined : List String} {copy : Copy}
    (h : Kept index chain inlined line copy) :
    visitsOfLine index chain enter line inlined = [] := by
  unfold visitsOfLine
  cases h with
  | plain hplain => rw [hplain]
  | unresolved hquoted hunknown => simp [hquoted, resolve, hunknown]
  | recursive hline hc =>
    obtain ⟨name, p, hquoted, htarget, rfl⟩ := Index.exists_of_included? hline
    simp [hquoted, resolve, htarget, hc]
  | duplicate hline hc hi =>
    obtain ⟨name, p, hquoted, htarget, rfl⟩ := Index.exists_of_included? hline
    simp [hquoted, resolve, htarget, hc, hi]

/-- An include of a new header leads to the calls for the header. -/
theorem visitsOfLine_of_included {line : Line} {file : TextFile}
    (hline : index.included? line = some file) (hchain : file.name ∉ chain) {inlined : List String}
    (hnew : file.name ∉ inlined) :
    visitsOfLine index chain enter line inlined = enter file (inlined ++ [file.name]) := by
  obtain ⟨name, p, hquoted, htarget, rfl⟩ := Index.exists_of_included? hline
  simp [visitsOfLine, hquoted, resolve, htarget, hchain, hnew]

variable {origin : String} {inside : TextFile → List String → Expanded}

/-- If there is one call for each block of a header, there is one for each block of the lines.
`levels` bounds how many names are unseen at the start. -/
theorem map_visitsOfLines {levels : Nat} {stack : List String}
    (hinside : ∀ file inlined, index.unseen inlined < levels →
      (enter file inlined).map Visit.block =
          (file.name, (stack.length + 1 : Int)) :: Row.blocks (stack ++ [file.name])
          (inside file inlined).rows ∧
        Row.WellNested (inside file inlined).rows ∧ inlined ⊆ (inside file inlined).inlined)
    (lines : List Line) (number : Nat) (inlined : List String)
    (hseen : index.unseen inlined ≤ levels) :
    (visitsOfLines index chain origin inside enter number lines inlined).map Visit.block =
      Row.blocks stack (expandLines index chain origin inside number lines inlined).rows := by
  induction lines generalizing number inlined with
  | nil => rfl
  | cons line lines ih =>
    simp only [visitsOfLines, expandLines, List.map_append]
    rcases @expandLine_cases index chain origin inside number line inlined with
      ⟨copy, hcopy, heq⟩ | ⟨file, hline, hc, hi, heq⟩
    · rw [heq, visitsOfLine_of_kept hcopy]
      exact ih (number + 1) inlined hseen
    · have hless : index.unseen (inlined ++ [file.name]) < levels :=
        Nat.lt_of_lt_of_le (Index.unseen_append_lt (Index.holds_of_included? hline) hi) hseen
      obtain ⟨hvisits, hnested, hgrows⟩ := hinside file (inlined ++ [file.name]) hless
      have hafter : index.unseen _ ≤ index.unseen _ := Index.unseen_le_of_subset hgrows
      rw [heq, visitsOfLine_of_included hline hc hi, hvisits,
        (hnested.blockRows _ _ _).blocks_append, Row.blocks_blockRows hnested]
      rw [ih (number + 1) (inside file (inlined ++ [file.name])).inlined (by omega)]

theorem inlined_subset_expandAt (levels : Nat) (ctx : Context) (origin : String) (lines : List Line)
    (hseen : index.unseen ctx.inlined ≤ levels) :
    ctx.inlined ⊆ (expandAt index levels ctx origin lines).inlined := by
  by_cases hlimit : ctx.limit < ctx.depth
  · rw [expandAt_of_limit_lt hlimit]
    exact List.Subset.refl _
  · exact (expands_expandAt levels ctx origin lines (by omega) hseen).before_subset

/-- **There is one call for each block**, and it is as deep as the block. -/
theorem map_visitsAt (levels : Nat) (ctx : Context) (origin : String) (lines : List Line)
    (hseen : index.unseen ctx.inlined ≤ levels) {stack : List String}
    (hdepth : ctx.depth = stack.length) :
    (visitsAt index levels ctx origin lines).map Visit.block =
      Row.blocks stack (expandAt index levels ctx origin lines).rows := by
  induction levels generalizing ctx origin lines stack with
  | zero =>
    by_cases hlimit : ctx.limit < ctx.depth
    · rw [expandAt_of_limit_lt hlimit, Row.blocks_of_opened_eq_nil (opened_cutRows _ _ _), visitsAt,
        if_pos hlimit]
      rfl
    · rw [visitsAt, if_neg hlimit, expandAt, if_neg hlimit]
      -- no name is unseen, so no header is entered
      exact map_visitsOfLines (fun _ _ hless => absurd hless (Nat.not_lt_zero _)) lines 1
        ctx.inlined hseen
  | succ levels ih =>
    by_cases hlimit : ctx.limit < ctx.depth
    · rw [expandAt_of_limit_lt hlimit, Row.blocks_of_opened_eq_nil (opened_cutRows _ _ _), visitsAt,
        if_pos hlimit]
      rfl
    · rw [visitsAt, if_neg hlimit, expandAt, if_neg hlimit]
      refine map_visitsOfLines (fun file inlined hless => ⟨?_, ?_, ?_⟩) lines 1 ctx.inlined hseen
      · have hinside : (ctx.enter file.name).depth = (stack ++ [file.name]).length := by
          simp [Context.enter, hdepth]
        have hcalls :=
          ih { ctx.enter file.name with inlined := inlined } file.name (headerLines file)
            (Nat.le_of_lt_succ hless) hinside
        rw [List.map_cons, hcalls]
        exact congrArg (fun depth => (file.name, depth + 1) :: _) hdepth
      · exact wellNested_expandAt levels { ctx.enter file.name with inlined := inlined } file.name
          (headerLines file) (Nat.le_of_lt_succ hless)
      · exact inlined_subset_expandAt levels
          { ctx.enter file.name with inlined := inlined } file.name
          (headerLines file) (Nat.le_of_lt_succ hless)

theorem forall_visitsOfLines {P : Visit → Prop} (lines : List Line)
    (henter : ∀ line ∈ lines, ∀ file inlined, index.included? line = some file → file.name ∉ chain →
      ∀ v ∈ enter file inlined, P v) (number : Nat) (inlined : List String) :
    ∀ v ∈ visitsOfLines index chain origin inside enter number lines inlined, P v := by
  induction lines generalizing number inlined with
  | nil => simp [visitsOfLines]
  | cons line lines ih =>
    obtain ⟨hline, hlines⟩ := List.forall_mem_cons.mp henter
    intro v hv
    rw [visitsOfLines] at hv
    rcases List.mem_append.mp hv with hv | hv
    · rcases @expandLine_cases index chain origin inside number line inlined with
        ⟨copy, hcopy, -⟩ | ⟨file, hfile, hc, hi, -⟩
      · rw [visitsOfLine_of_kept hcopy] at hv
        cases hv
      · rw [visitsOfLine_of_included hfile hc hi] at hv
        exact hline file _ hfile hc v hv
    · exact ih hlines (number + 1) _ v hv

/-- **What entering a header keeps holds of the context of every call.** -/
theorem forall_visitsAt {P : Context → Prop}
    (henter : ∀ ctx file inlined, P ctx → index.Holds file → file.name ∉ ctx.chain →
      P { ctx.enter file.name with inlined := inlined })
    (levels : Nat) (ctx : Context) (origin : String) (lines : List Line) (hctx : P ctx) :
    ∀ v ∈ visitsAt index levels ctx origin lines, P v.ctx := by
  induction levels generalizing ctx origin lines with
  | zero =>
    rw [visitsAt]
    split
    · simp
    · exact forall_visitsOfLines lines (by simp) 1 ctx.inlined
  | succ levels ih =>
    rw [visitsAt]
    split
    · simp
    · refine forall_visitsOfLines lines (fun line _ file inlined hline hc => ?_) 1 ctx.inlined
      have hinside := henter ctx file inlined hctx (Index.holds_of_included? hline) hc
      exact List.forall_mem_cons.mpr ⟨hinside, ih _ file.name (headerLines file) hinside⟩

/-- One call for each block, over files that are expanded one after another. -/
theorem map_visitsOfFiles (ctx : Context) (hdepth : ctx.depth = 0) (files : List TextFile) :
    (visitsOfFiles index ctx files).map Visit.block =
      Row.blocks [] ((expandFiles index ctx files).map (·.rows)).flatten := by
  induction files generalizing ctx with
  | nil => rfl
  | cons file files ih =>
    have hfile : (visits index ctx file.name file.content).map Visit.block =
        Row.blocks [] (expand index ctx file.name file.content).rows :=
      map_visitsAt index.files.length ctx file.name _ (Index.unseen_le_length ctx.inlined) hdepth
    have hnested : Row.WellNested (expand index ctx file.name file.content).rows :=
      wellNested_expand ctx file.name file.content
    have hlater :=
      ih { ctx with inlined := (expand index ctx file.name file.content).inlined } hdepth
    rw [visitsOfFiles, List.map_append, hfile, hlater, ← hnested.blocks_append]
    rfl

theorem forall_visitsOfFiles {P : Context → Prop}
    (henter : ∀ ctx file inlined, P ctx → index.Holds file → file.name ∉ ctx.chain →
      P { ctx.enter file.name with inlined := inlined })
    (hgrow : ∀ ctx inlined, P ctx → P { ctx with inlined := inlined }) (ctx : Context)
    (files : List TextFile) (hctx : P ctx) : ∀ v ∈ visitsOfFiles index ctx files, P v.ctx := by
  induction files generalizing ctx with
  | nil => simp [visitsOfFiles]
  | cons file files ih =>
    rw [visitsOfFiles]
    exact List.forall_mem_append.mpr
      ⟨forall_visitsAt henter index.files.length ctx file.name _ hctx, ih _ (hgrow ctx _ hctx)⟩

end Visits

/-! ## Names -/

namespace Index

variable {index : Index}

theorem Holds.mem_names {file : TextFile} (h : index.Holds file) : file.name ∈ index.names := by
  obtain ⟨p, hp, rfl⟩ := h.mem
  exact List.mem_eraseDups.mpr (List.mem_map_of_mem hp)

/-- Different names are not more than there are. -/
theorem length_le_size {names : List String} (hnodup : names.Nodup) (hknown : names ⊆ index.names) :
    names.length ≤ index.size :=
  (List.subperm_of_subset hnodup hknown).length_le

end Index

/-- The headers that are being expanded are as many as the depth, and they are different files. -/
structure SimplePath (index : Index) (depth : Int) (chain : List String) : Prop where
  depth_eq : depth = chain.length
  nodup : chain.Nodup
  known : chain ⊆ index.names

namespace SimplePath

variable {index : Index} {depth : Int} {chain : List String}

theorem nil : SimplePath index 0 [] := ⟨rfl, List.nodup_nil, List.nil_subset _⟩

theorem enter (h : SimplePath index depth chain) {file : TextFile} (hfile : index.Holds file)
    (hnew : file.name ∉ chain) : SimplePath index (depth + 1) (chain ++ [file.name]) := by
  refine ⟨?_, ?_, ?_⟩
  · rw [h.depth_eq, List.length_append]
    rfl
  · exact (List.perm_append_singleton file.name chain).nodup_iff.mpr
      (List.nodup_cons.mpr ⟨hnew, h.nodup⟩)
  · exact List.append_subset.mpr ⟨h.known, by simpa using hfile.mem_names⟩

theorem depth_le (h : SimplePath index depth chain) : depth ≤ index.size := by
  have hlength := Index.length_le_size h.nodup h.known
  rw [h.depth_eq]
  exact Int.ofNat_le.mpr hlength

end SimplePath

/-! ## The limit -/

theorem Kept.deterministic {index : Index} {chain inlined : List String} {line : Line}
    {copy copy' : Copy} (h : Kept index chain inlined line copy)
    (h' : Kept index chain inlined line copy') : copy = copy' := by
  cases hline : index.included? line with
  | some target =>
    rcases h.of_included? hline with ⟨rfl, hc⟩ | ⟨rfl, hc, -⟩
    · rcases h'.of_included? hline with ⟨rfl, -⟩ | ⟨-, hnc, -⟩
      · rfl
      · exact absurd hc hnc
    · rcases h'.of_included? hline with ⟨-, hc'⟩ | ⟨rfl, -, -⟩
      · exact absurd hc' hc
      · rfl
  | none =>
    cases h with
    | recursive hr | duplicate hr => rw [hline] at hr; cases hr
    | plain hplain =>
      cases h' with
      | plain => rfl
      | unresolved hquoted => rw [hplain] at hquoted; cases hquoted
      | recursive hr | duplicate hr => rw [hline] at hr; cases hr
    | unresolved hquoted =>
      cases h' with
      | plain hplain => rw [hplain] at hquoted; cases hquoted
      | unresolved hquoted' => rw [Option.some.inj (hquoted.symm.trans hquoted')]
      | recursive hr | duplicate hr => rw [hline] at hr; cases hr

/-- A line that is kept includes no new header. -/
theorem Kept.not_new {index : Index} {chain inlined : List String} {line : Line} {copy : Copy}
    (h : Kept index chain inlined line copy) {file : TextFile}
    (hline : index.included? line = some file) (hchain : file.name ∉ chain) :
    file.name ∈ inlined := by
  rcases h.of_included? hline with ⟨-, hc⟩ | ⟨-, -, hi⟩
  · exact absurd hc hchain
  · exact hi

namespace Expands

variable {index : Index} {limit : Option Int} {depth : Int} {chain : List String} {origin : String}
  {number : Nat} {lines : List Line} {before after : List String} {rows : List Row}

/-- **Lines can be expanded in one way only.** -/
theorem deterministic (h : Expands index limit depth chain origin number lines before rows after)
    {rows' : List Row} {after' : List String}
    (h' : Expands index limit depth chain origin number lines before rows' after') :
    rows = rows' ∧ after = after' := by
  induction h generalizing rows' after' with
  | done =>
    cases h'
    exact ⟨rfl, rfl⟩
  | keep hcopy hrest ih =>
    cases h' with
    | keep hcopy' hrest' =>
      obtain ⟨rfl, rfl⟩ := ih hrest'
      rw [hcopy.deterministic hcopy']
      exact ⟨rfl, rfl⟩
    | cut _ _ hline hchain hnew => exact absurd (hcopy.not_new hline hchain) hnew
    | inline _ hline hchain hnew => exact absurd (hcopy.not_new hline hchain) hnew
  | cut hlimit hdepth hline hchain hnew hrest ih =>
    cases h' with
    | keep hcopy' => exact absurd (hcopy'.not_new hline hchain) hnew
    | cut hlimit' _ hline' _ _ hrest' =>
      obtain rfl := Option.some.inj (hlimit.symm.trans hlimit')
      obtain rfl := Option.some.inj (hline.symm.trans hline')
      obtain ⟨rfl, rfl⟩ := ih hrest'
      exact ⟨rfl, rfl⟩
    | inline hdepth' =>
      have hle := hdepth' _ hlimit
      omega
  | inline hdepth hline hchain hnew hbody hrest ihbody ihrest =>
    cases h' with
    | keep hcopy' => exact absurd (hcopy'.not_new hline hchain) hnew
    | cut hlimit' hdepth' =>
      have hle := hdepth _ hlimit'
      omega
    | inline _ hline' _ _ hbody' hrest' =>
      obtain rfl := Option.some.inj (hline.symm.trans hline')
      obtain ⟨rfl, rfl⟩ := ihbody hbody'
      obtain ⟨rfl, rfl⟩ := ihrest hrest'
      exact ⟨rfl, rfl⟩

/-- **If the limit is not less than the number of names, no file lies too deep.** -/
theorem uncut (h : Expands index limit depth chain origin number lines before rows after)
    (hsize : ∀ bound, limit = some bound → index.size ≤ bound)
    (hpath : SimplePath index depth chain) :
    Row.Uncut rows := by
  induction h with
  | done => simp [Row.Uncut]
  | keep hcopy hrest ih => exact List.forall_mem_cons.mpr ⟨rfl, ih hpath⟩
  | cut hlimit hdepth hline hchain hnew hrest ih =>
    -- the header would be one name more on the path than there are
    have hle := (hpath.enter (Index.holds_of_included? hline) hchain).depth_le
    have hbound := hsize _ hlimit
    omega
  | inline hdepth hline hchain hnew hbody hrest ihbody ihrest =>
    have hinside := ihbody (hpath.enter (Index.holds_of_included? hline) hchain)
    exact Row.uncut_append.mpr ⟨Row.uncut_blockRows.mpr hinside, ihrest hpath⟩

end Expands

theorem Expanded.ext {e e' : Expanded} (hrows : e.rows = e'.rows)
    (hinlined : e.inlined = e'.inlined) :
    e = e' := by
  cases e
  cases e'
  simp_all

/-- With such a limit a text is expanded as if there were none. -/
theorem expands_none_expand {index : Index} {limit : Int} (hsize : index.size ≤ limit)
    (inlined : List String) (origin code : String) :
    Expands index none 0 [] origin 1 (splitLines code.toList) inlined
      (expand index { Context.fresh limit with inlined := inlined } origin code).rows
      (expand index { Context.fresh limit with inlined := inlined } origin code).inlined := by
  have hlimit : (0 : Int) ≤ limit := by omega
  have hexpands :=
    @expands_expand index { Context.fresh limit with inlined := inlined } hlimit origin code
  refine hexpands.unlimited (hexpands.uncut (fun bound hbound => ?_) .nil)
  rw [← Option.some.inj hbound]
  exact hsize

theorem expandsAll_none_expandFiles {index : Index} {limit : Int} (hsize : index.size ≤ limit)
    (files : List TextFile) (inlined : List String) :
    ExpandsAll index none files inlined
      (expandFiles index { Context.fresh limit with inlined := inlined } files) := by
  induction files generalizing inlined with
  | nil => exact .nil
  | cons file files ih =>
    exact .cons (expands_none_expand hsize inlined file.name file.content) (ih _)

namespace ExpandsAll

variable {index : Index} {limit : Option Int} {files : List TextFile} {before : List String}
  {chunks : List Chunk}

theorem deterministic (h : ExpandsAll index limit files before chunks) {chunks' : List Chunk}
    (h' : ExpandsAll index limit files before chunks') : chunks = chunks' := by
  induction h generalizing chunks' with
  | nil =>
    cases h'
    rfl
  | cons hfile hrest ih =>
    cases h' with
    | cons hfile' hrest' =>
      obtain ⟨rfl, rfl⟩ := hfile.deterministic hfile'
      rw [ih hrest']

theorem uncut (h : ExpandsAll index none files before chunks) : ∀ c ∈ chunks, Row.Uncut c.rows := by
  induction h with
  | nil => simp
  | cons hfile hrest ih => exact List.forall_mem_cons.mpr ⟨hfile.uncut (by simp) .nil, ih⟩

end ExpandsAll

theorem Bundle.uncut_chunkRows {chunks : List Chunk} (h : ∀ c ∈ chunks, Row.Uncut c.rows) :
    Row.Uncut (chunkRows chunks) := by
  intro row hrow
  rcases mem_chunkRows.mp hrow with rfl | ⟨c, hc, hrow⟩
  · rfl
  · rcases List.mem_cons.mp hrow with rfl | hrow
    · rfl
    · exact h c hc row (Row.mem_of_mem_complete hrow)

/-! ## All sources -/

section Files

variable {index : Index}

theorem opened_expand_subset (ctx : Context) (origin code : String) :
    Row.opened (expand index ctx origin code).rows ⊆ index.names := by
  by_cases hlimit : ctx.limit < ctx.depth
  · rw [expand_of_limit_lt hlimit, opened_cutRows]
    exact List.nil_subset _
  · intro key hkey
    have hexpands := @expands_expand index ctx (by omega) origin code
    obtain ⟨target, hpath, rfl⟩ := @Expands.reached _ _ _ _ _ _ _ _ _ _ hexpands ⟨origin, code⟩
      (fun line hline target htarget => ⟨line, hline, htarget⟩) key hkey
    exact (Index.holds_of_transGen hpath).mem_names

theorem opened_expandFiles_subset (ctx : Context) (files : List TextFile) :
    Row.opened ((expandFiles index ctx files).map (·.rows)).flatten ⊆ index.names := by
  induction files generalizing ctx with
  | nil => exact List.nil_subset _
  | cons file files ih =>
    rw [expandFiles, List.map_cons, List.flatten_cons, Row.opened_append]
    exact List.append_subset.mpr ⟨opened_expand_subset ctx file.name file.content, ih _⟩

/-- Files expanded one after another inline each header once, whatever the context. -/
theorem exists_inlines_expandFiles (ctx : Context) (files : List TextFile) :
    ∃ after, Row.Inlines ctx.inlined
      ((expandFiles index ctx files).map (·.rows)).flatten after := by
  induction files generalizing ctx with
  | nil => exact ⟨ctx.inlined, .of_opened_eq_nil rfl _⟩
  | cons file files ih =>
    obtain ⟨after, hrest⟩ :=
      ih { ctx with inlined := (expand index ctx file.name file.content).inlined }
    exact ⟨after, (inlines_expand ctx file.name file.content).append hrest⟩

end Files

namespace Bundle

variable (tag : String) (files : List TextFile)

theorem ofFiles_eq_of_size_le {limit limit' : Int} (hsize : (Index.ofFiles files).size ≤ limit)
    (hsize' : (Index.ofFiles files).size ≤ limit') :
    Bundle.ofFiles tag files limit = Bundle.ofFiles tag files limit' := by
  unfold Bundle.ofFiles
  cases Sources.ofFiles tag files with
  | none => rfl
  | some sources =>
    have h := expandsAll_none_expandFiles hsize sources.order []
    have h' := expandsAll_none_expandFiles hsize' sources.order []
    exact congrArg (Bundle.unit sources) (h.deterministic h')

theorem uncut_of_size_le {limit : Int} (hsize : (Index.ofFiles files).size ≤ limit) :
    Row.Uncut (Bundle.ofFiles tag files limit).rows := by
  unfold Bundle.ofFiles
  cases Sources.ofFiles tag files with
  | none => simp [rows, Row.Uncut]
  | some sources => exact uncut_chunkRows (expandsAll_none_expandFiles hsize sources.order []).uncut

/-- Making a bundle takes one call for each block of its chunks. -/
theorem map_visits_block (limit : Int) :
    (Bundle.visits tag files limit).map Visit.block =
      Row.blocks [] ((Bundle.ofFiles tag files limit).chunks.map (·.rows)).flatten := by
  unfold Bundle.visits Bundle.ofFiles
  cases Sources.ofFiles tag files with
  | none => rfl
  | some sources => exact map_visitsOfFiles (Context.fresh limit) rfl sources.order

/-- The calls that making a bundle takes are those for the headers it inlines. -/
theorem map_visits (limit : Int) :
    (Bundle.visits tag files limit).map (·.header.name) =
      Row.opened (Bundle.ofFiles tag files limit).rows := by
  have hblocks := congrArg (List.map Prod.fst) (map_visits_block tag files limit)
  rw [List.map_map, Row.map_fst_blocks] at hblocks
  refine hblocks.trans ?_
  cases Bundle.ofFiles tag files limit with
  | verbatim => rfl
  | unit sources chunks => exact (opened_chunkRows chunks).symm

/-- Whatever the limit, the headers inlined are different files. -/
theorem opened_nodup_and_subset (limit : Int) :
    (Row.opened (Bundle.ofFiles tag files limit).rows).Nodup ∧
      Row.opened (Bundle.ofFiles tag files limit).rows ⊆ (Index.ofFiles files).names := by
  unfold Bundle.ofFiles
  cases Sources.ofFiles tag files with
  | none => exact ⟨List.nodup_nil, List.nil_subset _⟩
  | some sources =>
    obtain ⟨after, hinlines⟩ :=
      @exists_inlines_expandFiles (Index.ofFiles files) (Context.fresh limit) sources.order
    simp only [rows, opened_chunkRows]
    exact ⟨hinlines.nodup, opened_expandFiles_subset (Context.fresh limit) sources.order⟩

theorem simplePath_of_mem_visits {limit : Int} {v : Visit}
    (hv : v ∈ Bundle.visits tag files limit) :
    SimplePath (Index.ofFiles files) v.ctx.depth v.ctx.chain := by
  unfold Bundle.visits at hv
  cases hs : Sources.ofFiles tag files with
  | none => rw [hs] at hv; cases hv
  | some sources =>
    rw [hs] at hv
    exact @forall_visitsOfFiles _ (fun ctx => SimplePath (Index.ofFiles files) ctx.depth ctx.chain)
      (fun ctx file inlined hctx hfile hnew => hctx.enter hfile hnew) (fun ctx inlined hctx => hctx)
      (Context.fresh limit) sources.order .nil v hv

end Bundle

/-- **The files bound the recursion.**  Limits of at least the number of names give one bundle, in
which no file is found to lie too deep, and a text is expanded as it is without a limit.  Whatever
the limit, a bundle takes one call for each header that it inlines: not more calls than there are
names, and not nested deeper. -/
theorem bundle_bounded_by_files (tag : String) (files : List TextFile) :
    (∀ limit limit' : Int, (Index.ofFiles files).size ≤ limit →
      (Index.ofFiles files).size ≤ limit' →
      Bundle.ofFiles tag files limit = Bundle.ofFiles tag files limit') ∧
    (∀ limit : Int, (Index.ofFiles files).size ≤ limit →
      Row.Uncut (Bundle.ofFiles tag files limit).rows) ∧
    (∀ origin code, ∃ e : Expanded,
      Expands (Index.ofFiles files) none 0 [] origin 1 (splitLines code.toList)
        [] e.rows e.inlined ∧
      ∀ limit : Int, (Index.ofFiles files).size ≤ limit →
        expand (Index.ofFiles files) (Context.fresh limit) origin code = e) ∧
    ∀ limit : Int,
      (Bundle.visits tag files limit).map (·.header.name) =
        Row.opened (Bundle.ofFiles tag files limit).rows ∧
      (Bundle.visits tag files limit).length ≤ (Index.ofFiles files).size ∧
      ∀ v ∈ Bundle.visits tag files limit,
        v.ctx.depth = v.ctx.chain.length ∧ v.ctx.depth ≤ (Index.ofFiles files).size := by
  refine ⟨fun _ _ hsize hsize' => Bundle.ofFiles_eq_of_size_le tag files hsize hsize',
    fun _ hsize => Bundle.uncut_of_size_le tag files hsize, fun origin code => ?_,
    fun limit => ⟨?_, ?_, ?_⟩⟩
  · have hend := expands_none_expand (Int.le_refl (Index.ofFiles files).size) [] origin code
    refine ⟨_, hend, fun limit hsize => ?_⟩
    obtain ⟨hrows, hinlined⟩ := (expands_none_expand hsize [] origin code).deterministic hend
    exact Expanded.ext hrows hinlined
  · exact Bundle.map_visits tag files limit
  · obtain ⟨hnodup, hknown⟩ := Bundle.opened_nodup_and_subset tag files limit
    have hlength := Index.length_le_size hnodup hknown
    rwa [← Bundle.map_visits, List.length_map] at hlength
  · intro v hv
    have hpath := Bundle.simplePath_of_mem_visits tag files hv
    exact ⟨hpath.depth_eq, hpath.depth_le⟩

/-- A source and a header that include each other, so that blocks nest as deep as there are
names. -/
def loopProgram : List TextFile :=
  [⟨"main.c", "#include \"a.h\"\nint main(void);"⟩, ⟨"a.h", "#include \"main.c\"\nint a;\n"⟩]

theorem bundle_bounded_by_files_loopProgram :
    (Index.ofFiles loopProgram).size = 2 ∧ ¬ Row.Uncut (Bundle.ofFiles "c" loopProgram 1).rows ∧
      Row.Uncut (Bundle.ofFiles "c" loopProgram 2).rows ∧
      Bundle.ofFiles "c" loopProgram 2 = Bundle.ofFiles "c" loopProgram 1000000 ∧
      (Bundle.visits "c" loopProgram 2).map (fun v => (v.header.name, v.ctx.depth)) =
        [("a.h", 1), ("main.c", 2)] := by
  have hsize : (Index.ofFiles loopProgram).size = 2 := by decide
  obtain ⟨hequal, huncut, -, -⟩ := bundle_bounded_by_files "c" loopProgram
  exact ⟨hsize, by decide, huncut 2 (by rw [hsize]; decide),
    hequal 2 1000000 (by rw [hsize]; decide) (by rw [hsize]; decide), by decide⟩

end Amalgam
