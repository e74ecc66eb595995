import Amalgam.Unit.Expansion

/-!
# Reading rows

Rows are read from the first to the last.

* `Along` — a reader goes through rows and holds a state, and each row passes a check in the state
  that the rows before it lead to.  `along_iff_split` says the same of every way to cut the rows in
  two.
* `openBlocks` — the blocks that are open after rows; `WellNested` — each block is closed before the
  one around it is, and all are closed in the end.
* `Uncut` — no file was found to lie too deep.
-/

set_option autoImplicit false

namespace Amalgam.Row

/-! ## A reader with a state -/

section Along

variable {σ : Type} {step : σ → Row → σ} {ok : σ → Row → Prop}

/-- Each row passes its check in the state that the rows before it lead to. -/
def Along (step : σ → Row → σ) (ok : σ → Row → Prop) : σ → List Row → Prop
  | _, [] => True
  | s, row :: rows => ok s row ∧ Along step ok (step s row) rows

@[simp] theorem along_nil (s : σ) : Along step ok s [] := trivial

@[simp] theorem along_cons (s : σ) (row : Row) (rows : List Row) :
    Along step ok s (row :: rows) ↔ ok s row ∧ Along step ok (step s row) rows := Iff.rfl

theorem along_append (s : σ) (rows more : List Row) :
    Along step ok s (rows ++ more) ↔
      Along step ok s rows ∧ Along step ok (rows.foldl step s) more := by
  induction rows generalizing s with
  | nil => simp
  | cons row rows ih => simp [ih, and_assoc]

theorem along_of_forall {rows : List Row} (h : ∀ row ∈ rows, ∀ s, ok s row) (s : σ) :
    Along step ok s rows := by
  induction rows generalizing s with
  | nil => exact along_nil s
  | cons row rows ih =>
    obtain ⟨hrow, hrows⟩ := List.forall_mem_cons.mp h
    exact ⟨hrow s, ih hrows (step s row)⟩

theorem along_iff_split (s : σ) (rows : List Row) :
    Along step ok s rows ↔
      ∀ done row rest, rows = done ++ row :: rest → ok (done.foldl step s) row := by
  constructor
  · intro h done row rest hrows
    subst hrows
    exact ((along_append s done (row :: rest)).mp h).2.1
  · intro h
    induction rows generalizing s with
    | nil => exact along_nil s
    | cons row rows ih =>
      refine ⟨h [] row rows rfl, ih _ ?_⟩
      intro done row' rest hrows
      exact h (row :: done) row' rest (by rw [hrows]; rfl)

end Along

/-! ## Completed rows -/

theorem eq_of_isBlank {row : Row} (h : row.isBlank = true) :
    ∃ file number, row = .source file number (.plain []) := by
  unfold isBlank at h
  split at h
  · exact ⟨_, _, rfl⟩
  · cases h

/-- Completing rows drops nothing but blank rows at the end. -/
theorem exists_eq_complete_append (rows : List Row) :
    ∃ dropped, rows = complete rows ++ dropped ∧ ∀ row ∈ dropped, row.isBlank = true := by
  induction rows with
  | nil => exact ⟨[], rfl, by simp⟩
  | cons row rows ih =>
    cases rows with
    | nil => exact ⟨[], rfl, by simp⟩
    | cons last rest =>
      unfold complete
      split
      · rename_i h
        simp only [Bool.and_eq_true, List.isEmpty_iff] at h
        obtain ⟨rfl, hblank⟩ := h
        exact ⟨[last], rfl, by simpa using hblank⟩
      · obtain ⟨dropped, hrows, hblank⟩ := ih
        exact ⟨dropped, by rw [List.cons_append, ← hrows], hblank⟩

theorem mem_of_mem_complete {row : Row} {rows : List Row} (h : row ∈ complete rows) :
    row ∈ rows := by
  obtain ⟨dropped, hrows, -⟩ := exists_eq_complete_append rows
  rw [hrows]
  exact List.mem_append_left _ h

/-- A row that is not blank is not dropped. -/
theorem mem_complete_of_not_isBlank {row : Row} {rows : List Row} (h : row ∈ rows)
    (hb : row.isBlank = false) : row ∈ complete rows := by
  obtain ⟨dropped, hrows, hblank⟩ := exists_eq_complete_append rows
  rw [hrows] at h
  rcases List.mem_append.mp h with h | h
  · exact h
  · rw [hblank row h] at hb
    cases hb

theorem Along.complete {σ : Type} {step : σ → Row → σ} {ok : σ → Row → Prop} {s : σ}
    {rows : List Row} (h : Along step ok s rows) : Along step ok s (complete rows) := by
  obtain ⟨dropped, hrows, -⟩ := exists_eq_complete_append rows
  rw [hrows, along_append] at h
  exact h.1

/-- A row that is not blank has the same rows before it when rows are completed. -/
theorem complete_split {rows done rest : List Row} {row : Row} (h : rows = done ++ row :: rest)
    (hb : row.isBlank = false) : ∃ rest', complete rows = done ++ row :: rest' := by
  obtain ⟨dropped, hrows, hblank⟩ := exists_eq_complete_append rows
  have hrow : row ∉ dropped := fun hmem => by
    rw [hblank row hmem] at hb
    cases hb
  rw [hrows] at h
  rcases List.append_eq_append_iff.mp h with ⟨more, -, hdropped⟩ | ⟨more, hcomplete, hmore⟩
  · exact absurd (by simp [hdropped]) hrow
  · cases more with
    | nil =>
      exact absurd (by rw [← List.nil_append dropped, ← hmore]; exact List.mem_cons_self) hrow
    | cons first more =>
      obtain ⟨rfl, -⟩ := List.cons.inj hmore
      exact ⟨more, hcomplete⟩

/-! ## Blocks -/

@[simp] theorem opened_nil : opened [] = [] := rfl

@[simp] theorem opened_append (rows more : List Row) :
    opened (rows ++ more) = opened rows ++ opened more := by
  simp [opened]

theorem opened_flatten (parts : List (List Row)) : opened parts.flatten = parts.flatMap opened := by
  induction parts with
  | nil => rfl
  | cons rows parts ih => rw [List.flatten_cons, opened_append, ih, List.flatMap_cons]

@[simp] theorem opened_source (file : String) (number : Nat) (copy : Copy) (rows : List Row) :
    opened (.source file number copy :: rows) = opened rows := rfl

@[simp] theorem opened_complete (rows : List Row) : opened (complete rows) = opened rows := by
  obtain ⟨dropped, hrows, hblank⟩ := exists_eq_complete_append rows
  have hdropped : opened dropped = [] := by
    unfold opened
    rw [List.filterMap_eq_nil_iff]
    intro row hrow
    obtain ⟨file, number, rfl⟩ := eq_of_isBlank (hblank row hrow)
    rfl
  conv => rhs; rw [hrows]
  rw [opened_append, hdropped, List.append_nil]

/-- A row of a block stands in its body or frames it. -/
theorem mem_of_mem_blockRows {origin key : String} {number : Nat} {body : List Row} {row : Row}
    (h : row ∈ blockRows origin number key body) :
    row ∈ body ∨ row = .openBlock key ∨ row = .closeBlock key ∨ ∃ n file, row = .lineIs n file := by
  simp only [blockRows, List.mem_cons, List.mem_append, List.not_mem_nil, or_false] at h
  rcases h with h | h | h | h | h
  · exact Or.inr (Or.inl h)
  · exact Or.inr (Or.inr (Or.inr ⟨1, key, h⟩))
  · exact Or.inl (mem_of_mem_complete h)
  · exact Or.inr (Or.inr (Or.inl h))
  · exact Or.inr (Or.inr (Or.inr ⟨number + 1, origin, h⟩))

@[simp] theorem opened_blockRows (origin : String) (number : Nat) (key : String) (body : List Row) :
    opened (blockRows origin number key body) = key :: opened body := by
  have hblock : blockRows origin number key body =
      [.openBlock key, .lineIs 1 key] ++
      (complete body ++ [.closeBlock key, .lineIs (number + 1) origin]) :=
    rfl
  have hend : opened [.closeBlock key, .lineIs (number + 1) origin] = [] := rfl
  rw [hblock, opened_append, opened_append, opened_complete, hend, List.append_nil]
  rfl

@[simp] theorem opened_copyRows (origin : String) (number : Nat) (lines : List Line) :
    opened (copyRows origin number lines) = [] := by
  induction lines generalizing number with
  | nil => rfl
  | cons line lines ih => exact ih (number + 1)

/-- The headers inlined go from `before` to `after` by the blocks that rows open: each of them is
new and is opened once. -/
structure Inlines (before : List String) (rows : List Row) (after : List String) : Prop where
  after_eq : after = before ++ opened rows
  nodup : (opened rows).Nodup
  fresh : ∀ key ∈ opened rows, key ∉ before

namespace Inlines

theorem of_opened_eq_nil {rows : List Row} (h : opened rows = []) (before : List String) :
    Inlines before rows before := by
  refine ⟨?_, ?_, ?_⟩ <;> simp [h]

theorem congr {before after : List String} {rows more : List Row} (h : Inlines before rows after)
    (hopened : opened more = opened rows) : Inlines before more after := by
  obtain ⟨hafter, hnodup, hfresh⟩ := h
  rw [← hopened] at hafter hnodup hfresh
  exact ⟨hafter, hnodup, hfresh⟩

theorem source {before after : List String} {rows : List Row} (h : Inlines before rows after)
    (file : String) (number : Nat) (copy : Copy) :
    Inlines before (.source file number copy :: rows) after :=
  ⟨h.after_eq, h.nodup, h.fresh⟩

theorem append {before middle after : List String} {rows more : List Row}
    (h : Inlines before rows middle) (h' : Inlines middle more after) :
    Inlines before (rows ++ more) after := by
  have hfresh := h'.fresh
  rw [h.after_eq] at hfresh
  simp only [List.mem_append, not_or] at hfresh
  refine ⟨?_, ?_, ?_⟩
  · rw [h'.after_eq, h.after_eq, opened_append, List.append_assoc]
  · rw [opened_append, List.nodup_append]
    exact ⟨h.nodup, h'.nodup, fun a ha b hb hab => (hfresh b hb).2 (hab ▸ ha)⟩
  · intro key hkey
    rw [opened_append] at hkey
    rcases List.mem_append.mp hkey with hkey | hkey
    · exact h.fresh key hkey
    · exact (hfresh key hkey).1

/-- A block opens its header and what its body opens. -/
theorem blockRows {before after : List String} {body : List Row} {key : String}
    (hnew : key ∉ before) (h : Inlines (before ++ [key]) body after) (origin : String)
    (number : Nat) :
    Inlines before (blockRows origin number key body) after := by
  have hfresh := h.fresh
  simp only [List.mem_append, List.mem_singleton, not_or] at hfresh
  refine ⟨?_, ?_, ?_⟩
  · rw [h.after_eq, opened_blockRows, List.append_assoc]
    rfl
  · rw [opened_blockRows, List.nodup_cons]
    exact ⟨fun hmem => (hfresh key hmem).2 rfl, h.nodup⟩
  · intro key' hkey
    rw [opened_blockRows] at hkey
    rcases List.mem_cons.mp hkey with rfl | hkey
    · exact hnew
    · exact (hfresh key' hkey).1

end Inlines

/-! ## Nesting -/

/-- A block that is open has been opened. -/
theorem openBlocks_subset (stack : List String) (rows : List Row) :
    openBlocks stack rows ⊆ stack ++ opened rows := by
  induction rows generalizing stack with
  | nil => exact List.subset_append_left stack []
  | cons row rows ih =>
    have hstep : stackAfter stack row ⊆ stack ++ opened [row] := by
      cases row with
      | closeBlock key =>
        exact List.Subset.trans (List.dropLast_subset stack) (List.subset_append_left stack [])
      | openBlock key => exact List.Subset.refl _
      | source | lineIs | tooDeep | gap => exact List.subset_append_left stack []
    have hopened : opened (row :: rows) = opened [row] ++ opened rows := opened_append [row] rows
    rw [hopened, ← List.append_assoc]
    refine List.Subset.trans (ih (stackAfter stack row)) (List.append_subset.mpr ⟨?_, ?_⟩)
    · exact List.Subset.trans hstep (List.subset_append_left _ _)
    · exact List.subset_append_right _ _

/-- A row that closes a block closes the innermost one. -/
def ClosesInnermost (stack : List String) (row : Row) : Prop :=
  ∀ key, row = .closeBlock key → stack.getLast? = some key

/-- Blocks are closed from the inside to the outside, and all of them are. -/
structure WellNested (rows : List Row) : Prop where
  innermost : ∀ stack, Along stackAfter ClosesInnermost stack rows
  closed : ∀ stack, openBlocks stack rows = stack

namespace WellNested

theorem nil : WellNested [] := ⟨fun _ => trivial, fun _ => rfl⟩

theorem append {rows more : List Row} (h : WellNested rows) (h' : WellNested more) :
    WellNested (rows ++ more) := by
  constructor
  · intro stack
    rw [along_append]
    refine ⟨h.innermost stack, ?_⟩
    have hstack : rows.foldl stackAfter stack = stack := h.closed stack
    rw [hstack]
    exact h'.innermost stack
  · intro stack
    have hrows : rows.foldl stackAfter stack = stack := h.closed stack
    unfold openBlocks
    rw [List.foldl_append, hrows]
    exact h'.closed stack

/-- A row that neither opens nor closes a block. -/
theorem single {row : Row} (ho : ∀ key, row ≠ .openBlock key) (hc : ∀ key, row ≠ .closeBlock key) :
    WellNested [row] := by
  have hstack : ∀ stack, stackAfter stack row = stack := by
    intro stack
    unfold stackAfter
    split
    · exact absurd rfl (ho _)
    · exact absurd rfl (hc _)
    · rfl
  exact ⟨fun stack => ⟨fun key hrow => absurd hrow (hc key), trivial⟩, hstack⟩

theorem source (file : String) (number : Nat) (copy : Copy) :
    WellNested [.source file number copy] :=
  single (by simp) (by simp)

theorem lineIs (number : Nat) (file : String) : WellNested [.lineIs number file] :=
  single (by simp) (by simp)

theorem complete {rows : List Row} (h : WellNested rows) : WellNested (complete rows) := by
  obtain ⟨dropped, hrows, hblank⟩ := exists_eq_complete_append rows
  have hdropped : ∀ stack, openBlocks stack dropped = stack := by
    intro stack
    clear hrows
    induction dropped with
    | nil => rfl
    | cons row dropped ih =>
      obtain ⟨file, number, rfl⟩ := eq_of_isBlank (hblank row (by simp))
      exact ih (fun row hrow => hblank row (List.mem_cons_of_mem _ hrow))
  refine ⟨fun stack => (h.innermost stack).complete, fun stack => ?_⟩
  have hclosed := h.closed stack
  rw [hrows, openBlocks, List.foldl_append] at hclosed
  exact (hdropped _).symm.trans hclosed

theorem blockRows {body : List Row} (h : WellNested body) (origin : String) (number : Nat)
    (key : String) :
    WellNested (blockRows origin number key body) := by
  have hbody := (lineIs 1 key).append h.complete
  have hopen : ∀ stack, ((.lineIs 1 key :: Row.complete body).foldl stackAfter (stack ++ [key])) =
      stack ++ [key] := fun stack => hbody.closed (stack ++ [key])
  have hsplit : Amalgam.blockRows origin number key body =
      [.openBlock key] ++ ((.lineIs 1 key :: Row.complete body) ++
        [.closeBlock key, .lineIs (number + 1) origin]) := rfl
  constructor
  · intro stack
    rw [hsplit, along_append, along_append]
    refine ⟨⟨by simp [ClosesInnermost], trivial⟩, hbody.innermost (stack ++ [key]), ?_⟩
    show Along stackAfter ClosesInnermost
      ((.lineIs 1 key :: Row.complete body).foldl stackAfter (stack ++ [key])) _
    rw [hopen]
    simp [ClosesInnermost]
  · intro stack
    unfold openBlocks
    rw [hsplit, List.foldl_append, List.foldl_append]
    show List.foldl stackAfter
      ((.lineIs 1 key :: Row.complete body).foldl stackAfter (stack ++ [key])) _ = stack
    rw [hopen]
    simp [stackAfter]

end WellNested

/-! ## Levels -/

/-- The blocks that rows open, each with its level; `stack` are the blocks that are open at the
first row. -/
def blocks : (stack : List String) → List Row → List (String × Int)
  | _, [] => []
  | stack, row :: rows =>
    (row.opened?.map fun key => (key, (stack.length + 1 : Int))).toList ++
      blocks (stackAfter stack row) rows

theorem map_fst_blocks (stack : List String) (rows : List Row) :
    (blocks stack rows).map Prod.fst = opened rows := by
  induction rows generalizing stack with
  | nil => rfl
  | cons row rows ih =>
    rw [blocks, List.map_append, ih]
    cases row <;> rfl

theorem blocks_of_opened_eq_nil {rows : List Row} (h : opened rows = []) (stack : List String) :
    blocks stack rows = [] := by
  rw [← List.map_eq_nil_iff (f := Prod.fst), map_fst_blocks, h]

theorem blocks_append (stack : List String) (rows more : List Row) :
    blocks stack (rows ++ more) = blocks stack rows ++ blocks (openBlocks stack rows) more := by
  induction rows generalizing stack with
  | nil => rfl
  | cons row rows ih =>
    rw [List.cons_append, blocks, blocks, ih, List.append_assoc]
    rfl

theorem WellNested.blocks_append {rows : List Row} (h : WellNested rows) (stack : List String)
    (more : List Row) : blocks stack (rows ++ more) = blocks stack rows ++ blocks stack more := by
  rw [Row.blocks_append, h.closed stack]

theorem blocks_complete (stack : List String) (rows : List Row) :
    blocks stack (complete rows) = blocks stack rows := by
  obtain ⟨dropped, hrows, hblank⟩ := exists_eq_complete_append rows
  have hnone : opened dropped = [] := by
    refine List.filterMap_eq_nil_iff.mpr fun row hrow => ?_
    obtain ⟨file, number, rfl⟩ := eq_of_isBlank (hblank row hrow)
    rfl
  calc blocks stack (complete rows)
      = blocks stack (complete rows) ++ blocks (openBlocks stack (complete rows)) dropped := by
        rw [blocks_of_opened_eq_nil hnone, List.append_nil]
    _ = blocks stack (complete rows ++ dropped) :=
      (blocks_append stack (complete rows) dropped).symm
    _ = blocks stack rows := by rw [← hrows]

/-- The blocks of a body lie one level deeper than the block itself. -/
theorem blocks_blockRows {body : List Row} (h : WellNested body) (stack : List String)
    (origin : String) (number : Nat) (key : String) :
    blocks stack (blockRows origin number key body) =
      (key, (stack.length + 1 : Int)) :: blocks (stack ++ [key]) body := by
  have hend : blocks (stack ++ [key]) [.closeBlock key, .lineIs (number + 1) origin] = [] :=
    blocks_of_opened_eq_nil rfl _
  show (key, _) :: blocks (stack ++ [key]) (complete body ++ _) = _
  rw [h.complete.blocks_append, hend, List.append_nil, blocks_complete]

theorem wellNested_copyRows (origin : String) (number : Nat) (lines : List Line) :
    WellNested (copyRows origin number lines) := by
  induction lines generalizing number with
  | nil => exact .nil
  | cons line lines ih =>
    exact (WellNested.source origin number (.plain line)).append (ih (number + 1))

/-! ## Depth -/

/-- Whether the row says that a file lies too deep. -/
def isTooDeep : Row → Bool
  | .tooDeep _ _ => true
  | _ => false

/-- No file was found to lie too deep. -/
def Uncut (rows : List Row) : Prop := ∀ row ∈ rows, row.isTooDeep = false

instance (rows : List Row) : Decidable (Uncut rows) :=
  inferInstanceAs (Decidable (∀ row ∈ rows, row.isTooDeep = false))

theorem not_uncut_of_mem {rows : List Row} {limit : Int} {file : String}
    (h : .tooDeep limit file ∈ rows) :
    ¬ Uncut rows := fun huncut => Bool.noConfusion (huncut _ h)

theorem uncut_append {rows more : List Row} : Uncut (rows ++ more) ↔ Uncut rows ∧ Uncut more :=
  List.forall_mem_append

theorem uncut_complete {rows : List Row} : Uncut (complete rows) ↔ Uncut rows := by
  refine ⟨fun h row hrow => ?_, fun h row hrow => h row (mem_of_mem_complete hrow)⟩
  cases hblank : row.isBlank with
  | false => exact h row (mem_complete_of_not_isBlank hrow hblank)
  | true =>
    obtain ⟨file, number, rfl⟩ := eq_of_isBlank hblank
    rfl

theorem uncut_blockRows {origin : String} {number : Nat} {key : String} {body : List Row} :
    Uncut (blockRows origin number key body) ↔ Uncut body := by
  have hblock : Uncut (blockRows origin number key body) ↔ Uncut (complete body) := by
    simp only [Uncut, blockRows, List.forall_mem_cons, List.forall_mem_append]
    simp [isTooDeep]
  exact hblock.trans uncut_complete

end Amalgam.Row
