import Amalgam.Proofs.Bundle
import Mathlib.Data.List.Induction

/-!
# The blocks of an expansion

Each row that opens a block is followed by a line directive, by the body of the block and by the row
that closes it.  The number of blocks around the row decides whether the body is expanded or cut.

* `BlockFollows` — what follows a row that opens a block; `HasBlocks` — this holds of every such
  row.
* `Expands.hasBlocks` — rows that lines are expanded to have blocks, if the depth is the number of
  blocks that are open.
* `length_openBlocks_le` — the level of its blocks bounds how deep rows nest.
* `Bundle.hasBlocks` — the rows of a bundle have blocks, whatever the limit.
-/

set_option autoImplicit false

namespace Amalgam

/-- What follows the row that opens a block of `key`, `level` blocks deep: the body of the block is
cut if it lies one level deeper than the limit, and not if it lies less deep. -/
def BlockFollows (index : Index) (limit : Int) (level : Nat) (key : String) (rest : List Row) :
    Prop :=
  ∃ file body later, index.Holds file ∧ file.name = key ∧
    rest = .lineIs 1 key :: (Row.complete body ++ .closeBlock key :: later) ∧ Row.WellNested body ∧
    (level = limit + 1 ∧ body = cutRows limit key (headerLines file) ∨
      level ≤ limit ∧ ∀ row, body.head? = some row → row.isTooDeep = false)

/-- Each row that opens a block is followed by the block; `stack` are the blocks open at the first
row. -/
def HasBlocks (index : Index) (limit : Int) : (stack : List String) → List Row → Prop
  | _, [] => True
  | stack, row :: rows =>
    (∀ key, row = .openBlock key → BlockFollows index limit (stack.length + 1) key rows) ∧
      HasBlocks index limit (Row.stackAfter stack row) rows

variable {index : Index} {limit : Int}

theorem BlockFollows.append {level : Nat} {key : String} {rest : List Row}
    (h : BlockFollows index limit level key rest) (more : List Row) :
    BlockFollows index limit level key (rest ++ more) := by
  obtain ⟨file, body, later, hfile, hname, rfl, hnested, hcases⟩ := h
  refine ⟨file, body, later ++ more, hfile, hname, ?_, hnested, hcases⟩
  simp

/-- Blank rows at the end do not belong to a block. -/
theorem BlockFollows.of_append_blank {level : Nat} {key : String} {rest dropped : List Row}
    (h : BlockFollows index limit level key (rest ++ dropped))
    (hblank : ∀ row ∈ dropped, row.isBlank = true) : BlockFollows index limit level key rest := by
  obtain ⟨file, body, later, hfile, hname, hrest, hnested, hcases⟩ := h
  have hclose : .closeBlock key ∉ dropped := fun hmem => Bool.noConfusion (hblank _ hmem)
  have hsplit : rest ++ dropped =
      (.lineIs 1 key :: Row.complete body) ++ .closeBlock key :: later := hrest
  rcases List.append_eq_append_iff.mp hsplit with ⟨more, -, hdropped⟩ | ⟨more, hbody, hmore⟩
  · exact absurd (by simp [hdropped]) hclose
  · cases more with
    | nil => exact absurd (by rw [List.nil_append] at hmore; simp [← hmore]) hclose
    | cons row more =>
      obtain ⟨rfl, -⟩ := List.cons.inj hmore
      exact ⟨file, body, more, hfile, hname, hbody, hnested, hcases⟩

namespace HasBlocks

/-- Rows that open no block. -/
theorem of_opened_eq_nil {rows : List Row} (h : Row.opened rows = []) (stack : List String) :
    HasBlocks index limit stack rows := by
  induction rows generalizing stack with
  | nil => trivial
  | cons row rows ih =>
    have hparts : Row.opened [row] ++ Row.opened rows = [] := by
      rw [← Row.opened_append]
      exact h
    obtain ⟨hrow, hrows⟩ := List.append_eq_nil_iff.mp hparts
    refine ⟨?_, ih hrows _⟩
    rintro key rfl
    cases hrow

theorem append {rows more : List Row} {stack : List String} (h : HasBlocks index limit stack rows)
    (h' : HasBlocks index limit (Row.openBlocks stack rows) more) :
    HasBlocks index limit stack (rows ++ more) := by
  induction rows generalizing stack with
  | nil => exact h'
  | cons row rows ih =>
    obtain ⟨hrow, hrows⟩ := h
    exact ⟨fun key hkey => (hrow key hkey).append more, ih hrows h'⟩

theorem append_of_wellNested {rows more : List Row} {stack : List String}
    (h : HasBlocks index limit stack rows) (hnested : Row.WellNested rows)
    (h' : HasBlocks index limit stack more) :
    HasBlocks index limit stack (rows ++ more) := by
  refine h.append ?_
  rw [hnested.closed stack]
  exact h'

theorem complete {rows : List Row} {stack : List String} (h : HasBlocks index limit stack rows) :
    HasBlocks index limit stack (Row.complete rows) := by
  obtain ⟨dropped, hrows, hblank⟩ := Row.exists_eq_complete_append rows
  rw [hrows] at h
  generalize Row.complete rows = kept at h
  clear hrows
  induction kept generalizing stack with
  | nil => trivial
  | cons row kept ih =>
    obtain ⟨hrow, hkept⟩ := h
    exact ⟨fun key hkey => (hrow key hkey).of_append_blank hblank, ih hkept⟩

/-- A block has blocks if its body has, one level deeper. -/
theorem blockRows {file : TextFile} (hfile : index.Holds file) {body : List Row}
    {stack : List String} (hnested : Row.WellNested body)
    (hcases : (stack.length + 1 : Nat) = limit + 1 ∧
      body = cutRows limit file.name (headerLines file) ∨
      (stack.length + 1 : Nat) ≤ limit ∧ ∀ row, body.head? = some row → row.isTooDeep = false)
    (hbody : HasBlocks index limit (stack ++ [file.name]) body) (origin : String) (number : Nat) :
    HasBlocks index limit stack (blockRows origin number file.name body) := by
  have hend : HasBlocks index limit (stack ++ [file.name])
      [.closeBlock file.name, .lineIs (number + 1) origin] := of_opened_eq_nil rfl _
  refine ⟨?_, ?_⟩
  · intro key hkey
    obtain rfl := Row.openBlock.inj hkey
    exact ⟨file, body, [.lineIs (number + 1) origin], hfile, rfl, rfl, hnested, hcases⟩
  · exact ⟨by simp, hbody.complete.append_of_wellNested hnested.complete hend⟩

theorem of_split {rows : List Row} {stack : List String} (h : HasBlocks index limit stack rows)
    {done rest : List Row} {key : String} (hrows : rows = done ++ .openBlock key :: rest) :
    BlockFollows index limit ((Row.openBlocks stack done).length + 1) key rest := by
  subst hrows
  induction done generalizing stack with
  | nil => exact h.1 key rfl
  | cons row done ih => exact ih h.2

end HasBlocks

/-! ## One expansion -/

/-- A file that is expanded does not start like one that is cut. -/
theorem Expands.head_not_tooDeep {bound : Option Int} {depth : Int} {chain : List String}
    {origin : String} {number : Nat} {lines : List Line} {before after : List String}
    {rows : List Row} (h : Expands index bound depth chain origin number lines before rows after) :
    ∀ row, rows.head? = some row → row.isTooDeep = false := by
  intro row hrow
  cases h with
  | done => cases hrow
  | keep | cut | inline =>
    obtain rfl := Option.some.inj hrow
    rfl

/-- **The rows that lines are expanded to have blocks**, if the depth is the number of blocks that
are open. -/
theorem Expands.hasBlocks {depth : Int} {chain : List String} {origin : String} {number : Nat}
    {lines : List Line} {before after : List String} {rows : List Row}
    (h : Expands index (some limit) depth chain origin number lines before rows after)
    {stack : List String} (hdepth : depth = stack.length) (hlimit : depth ≤ limit) :
    HasBlocks index limit stack rows := by
  induction h generalizing stack with
  | done => trivial
  | keep hcopy hrest ih =>
    have hlater := ih hdepth hlimit
    exact ⟨by simp, hlater⟩
  | @cut _ _ _ _ _ _ _ _ _ _ file hbound hless hline hchain hnew hrest ih =>
    obtain rfl := Option.some.inj hbound
    have hnested := wellNested_cutRows limit file.name (headerLines file)
    have hbody := opened_cutRows limit file.name (headerLines file)
    have hblock := HasBlocks.blockRows (Index.holds_of_included? hline) hnested
      (Or.inl ⟨by omega, rfl⟩) (.of_opened_eq_nil hbody (stack ++ [file.name]))
    exact (hblock _ _).append_of_wellNested (hnested.blockRows _ _ _) (ih hdepth hlimit)
  | @inline _ _ _ _ _ _ _ _ _ _ _ file hbound hline hchain hnew hbody hrest ihbody ihrest =>
    have hless := hbound limit rfl
    have hinside := @ihbody (stack ++ [file.name]) (by simp [hdepth]) hless
    have hblock := HasBlocks.blockRows (Index.holds_of_included? hline) hbody.wellNested
      (Or.inr ⟨by omega, hbody.head_not_tooDeep⟩) hinside
    exact (hblock _ _).append_of_wellNested (hbody.wellNested.blockRows _ _ _)
      (ihrest hdepth hlimit)

/-! ## Nesting -/

/-- Rows nest as deep as the level of their blocks, and no deeper. -/
theorem length_openBlocks_le {rows : List Row} {bound : Int} (hbound : 0 ≤ bound)
    (h : ∀ done key rest, rows = done ++ .openBlock key :: rest →
      ((Row.openBlocks [] done).length + 1 : Nat) ≤ bound)
    {done rest : List Row} (hrows : rows = done ++ rest) :
    ((Row.openBlocks [] done).length : Int) ≤ bound := by
  induction done using List.reverseRecOn generalizing rest with
  | nil => exact hbound
  | append_singleton done row ih =>
    have hsplit : rows = done ++ row :: rest := by rw [hrows, List.append_assoc]; rfl
    have hbefore := ih hsplit
    have hafter : Row.openBlocks [] (done ++ [row]) =
        Row.stackAfter (Row.openBlocks [] done) row := by
      simp [Row.openBlocks]
    rw [hafter]
    cases row with
    | openBlock key =>
      have hlevel := h done key rest hsplit
      simpa [Row.stackAfter] using hlevel
    | closeBlock key =>
      have hshorter : (Row.openBlocks [] done).dropLast.length ≤
          (Row.openBlocks [] done).length := by simp
      show ((Row.openBlocks [] done).dropLast.length : Int) ≤ bound
      omega
    | source | lineIs | tooDeep | gap => exact hbefore

/-- A block lies at most one level deeper than the limit. -/
theorem BlockFollows.level_le {level : Nat} {key : String} {rest : List Row}
    (h : BlockFollows index limit level key rest) : level ≤ limit + 1 := by
  obtain ⟨_, _, _, -, -, -, -, ⟨hlevel, -⟩ | ⟨hlevel, -⟩⟩ := h <;> omega

/-! ## All sources -/

theorem hasBlocks_expand (inlined : List String) (origin code : String) :
    HasBlocks index limit []
      (expand index { Context.fresh limit with inlined := inlined } origin code).rows := by
  by_cases hneg : limit < 0
  · rw [expand_of_limit_lt hneg]
    exact .of_opened_eq_nil (opened_cutRows _ _ _) []
  · have hlimit : (0 : Int) ≤ limit := by omega
    have hexpands :=
      @expands_expand index { Context.fresh limit with inlined := inlined } hlimit origin code
    exact hexpands.hasBlocks rfl hlimit

theorem hasBlocks_expandFiles (files : List TextFile) (inlined : List String) :
    ∀ c ∈ expandFiles index { Context.fresh limit with inlined := inlined } files,
      HasBlocks index limit [] c.rows ∧ Row.WellNested c.rows := by
  induction files generalizing inlined with
  | nil => simp [expandFiles]
  | cons file files ih =>
    exact List.forall_mem_cons.mpr ⟨⟨hasBlocks_expand inlined _ _, wellNested_expand _ _ _⟩, ih _⟩

theorem Bundle.hasBlocks_chunkRows {chunks : List Chunk}
    (h : ∀ c ∈ chunks, HasBlocks index limit [] c.rows ∧ Row.WellNested c.rows) :
    HasBlocks index limit [] (chunkRows chunks) := by
  induction chunks with
  | nil => exact .of_opened_eq_nil rfl []
  | cons c chunks ih =>
    obtain ⟨⟨hblocks, hnested⟩, hlater⟩ := List.forall_mem_cons.mp h
    obtain ⟨n, hrows⟩ := chunkRows_cons c chunks
    have hlines : HasBlocks index limit [] c.lines := ⟨by simp, hblocks.complete⟩
    have hgaps : HasBlocks index limit [] (List.replicate n .gap) :=
      .of_opened_eq_nil (opened_gaps n) []
    rw [hrows]
    exact hlines.append_of_wellNested (Chunk.wellNested_lines hnested)
      (hgaps.append_of_wellNested (wellNested_gaps n) (ih hlater))

/-- **The rows of a bundle have blocks and are well nested**, whatever the limit. -/
theorem Bundle.hasBlocks (tag : String) (files : List TextFile) (limit : Int) :
    HasBlocks (Index.ofFiles files) limit [] (Bundle.ofFiles tag files limit).rows ∧
      Row.WellNested (Bundle.ofFiles tag files limit).rows := by
  unfold Bundle.ofFiles
  cases Sources.ofFiles tag files with
  | none => exact ⟨trivial, .nil⟩
  | some sources =>
    have hchunks := @hasBlocks_expandFiles (Index.ofFiles files) limit sources.order []
    exact ⟨hasBlocks_chunkRows hchunks, wellNested_chunkRows fun c hc => (hchunks c hc).2⟩

end Amalgam
