import Amalgam.Proofs.Lookup
import Amalgam.Proofs.Rows

/-!
# Expansion as a relation

`expandAt` recurs on a bound for the nesting of blocks.  `Expands` says what becomes of lines
without any bound: each line is kept or replaced by a comment, or a header is inlined at it, and
then the lines of the header are expanded in the same way.

* `expands_expand` — `expand` does this: the number of files is bound enough, since each block that
  is opened is that of another file.
* `Expands.unlimited` — if no file lies too deep, the limit does not matter.
* `Expands.mem_after` — an include of a known file leaves it inlined.
* `Expands.inlines`, `Expands.wellNested` — what is added to the headers inlined before are the
  blocks that are opened; each of them is new, and they are well nested.
-/

set_option autoImplicit false

namespace Amalgam

/-- The lines of a header are those of its text, with `#pragma once` emptied. -/
theorem headerLines_eq (file : TextFile) :
    headerLines file = (splitLines file.content.toList).map blankPragmaLine :=
  splitLines_blankPragmaOnce file.content.toList

theorem mem_zipIdx_headerLines {file : TextFile} {line : Line} {number : Nat}
    (h : (line, number) ∈ (splitLines file.content.toList).zipIdx 1) :
    (blankPragmaLine line, number) ∈ (headerLines file).zipIdx 1 := by
  rw [headerLines_eq, List.zipIdx_map]
  exact List.mem_map_of_mem h

/-! ## The relation -/

/-- What is put out for a line at which no header is inlined. -/
inductive Kept (index : Index) (chain inlined : List String) (line : Line) : Copy → Prop where
  | plain (h : quotedInclude? line = none) : Kept index chain inlined line (.plain line)
  | unresolved {name : String} (h : quotedInclude? line = some name)
      (ht : index.target? name = none) :
      Kept index chain inlined line (.unresolved line name)
  | recursive {file : TextFile} (h : index.included? line = some file) (hc : file.name ∈ chain) :
      Kept index chain inlined line (.recursive file.name)
  | duplicate {file : TextFile} (h : index.included? line = some file) (hc : file.name ∉ chain)
      (hi : file.name ∈ inlined) : Kept index chain inlined line (.duplicate file.name)

namespace Kept

variable {index : Index} {chain inlined : List String} {line : Line} {copy : Copy}

/-- An include of a known file is kept if the file is being expanded or was inlined before. -/
theorem of_included? (h : Kept index chain inlined line copy) {target : TextFile}
    (hline : index.included? line = some target) :
    (copy = .recursive target.name ∧ target.name ∈ chain) ∨
      (copy = .duplicate target.name ∧ target.name ∉ chain ∧ target.name ∈ inlined) := by
  cases h with
  | plain hplain => simp [Index.included?, hplain] at hline
  | unresolved hquoted hunknown => simp [Index.included?, hquoted, hunknown] at hline
  | recursive hrecursive hc =>
    obtain rfl := Option.some.inj (hrecursive.symm.trans hline)
    exact Or.inl ⟨rfl, hc⟩
  | duplicate hduplicate hc hi =>
    obtain rfl := Option.some.inj (hduplicate.symm.trans hline)
    exact Or.inr ⟨rfl, hc, hi⟩

/-- A line that includes no known file is copied. -/
theorem render_eq (h : Kept index chain inlined line copy) (hline : index.included? line = none) :
    copy.render = line := by
  cases h with
  | plain | unresolved => rfl
  | recursive hrecursive => rw [hline] at hrecursive; cases hrecursive
  | duplicate hduplicate => rw [hline] at hduplicate; cases hduplicate

end Kept

/-- The rows of a file that lies too deep. -/
def cutRows (limit : Int) (origin : String) (lines : List Line) : List Row :=
  .tooDeep limit origin :: copyRows origin 1 lines

@[simp] theorem opened_cutRows (limit : Int) (origin : String) (lines : List Line) :
    Row.opened (cutRows limit origin lines) = [] :=
  Row.opened_copyRows origin 1 lines

theorem wellNested_cutRows (limit : Int) (origin : String) (lines : List Line) :
    Row.WellNested (cutRows limit origin lines) :=
  (Row.WellNested.single (by simp) (by simp)).append (Row.wellNested_copyRows origin 1 lines)

/-- The lines of `origin` from line `number` on become rows, inside the headers `chain`.  The
headers inlined are `before` at the start and `after` at the end.  Without a limit, no file is too
deep. -/
inductive Expands (index : Index) (limit : Option Int) :
    (depth : Int) → (chain : List String) → (origin : String) → (number : Nat) → List Line →
      (before : List String) → List Row → (after : List String) → Prop where
  | done {depth : Int} {chain : List String} {origin : String} {number : Nat}
      {before : List String} :
      Expands index limit depth chain origin number [] before [] before
  | keep {depth : Int} {chain : List String} {origin : String} {number : Nat} {line : Line}
      {lines : List Line} {before after : List String} {rows : List Row} {copy : Copy}
      (hcopy : Kept index chain before line copy)
      (hrest : Expands index limit depth chain origin (number + 1) lines before rows after) :
      Expands index limit depth chain origin number (line :: lines) before
        (.source origin number copy :: rows) after
  | cut {depth : Int} {chain : List String} {origin : String} {number : Nat} {line : Line}
      {lines : List Line} {before after : List String} {rows : List Row} {bound : Int}
      {file : TextFile} (hlimit : limit = some bound) (hdepth : bound < depth + 1)
      (hline : index.included? line = some file) (hchain : file.name ∉ chain)
      (hnew : file.name ∉ before)
      (hrest : Expands index limit depth chain origin (number + 1) lines
        (before ++ [file.name]) rows after) :
      Expands index limit depth chain origin number (line :: lines) before
        (blockRows origin number file.name (cutRows bound file.name (headerLines file)) ++ rows)
          after
  | inline {depth : Int} {chain : List String} {origin : String} {number : Nat} {line : Line}
      {lines : List Line} {before middle after : List String} {body rows : List Row}
      {file : TextFile} (hdepth : ∀ bound, limit = some bound → depth + 1 ≤ bound)
      (hline : index.included? line = some file) (hchain : file.name ∉ chain)
      (hnew : file.name ∉ before)
      (hbody : Expands index limit (depth + 1) (chain ++ [file.name]) file.name 1 (headerLines file)
        (before ++ [file.name]) body middle)
      (hrest : Expands index limit depth chain origin (number + 1) lines middle rows after) :
      Expands index limit depth chain origin number (line :: lines) before
        (blockRows origin number file.name body ++ rows) after

namespace Expands

variable {index : Index} {limit : Option Int} {depth : Int} {chain : List String} {origin : String}
  {number : Nat} {lines : List Line} {before after : List String} {rows : List Row}

/-- **Each header is inlined once**, and none that was inlined before. -/
theorem inlines (h : Expands index limit depth chain origin number lines before rows after) :
    Row.Inlines before rows after := by
  induction h with
  | done => exact .of_opened_eq_nil rfl _
  | keep hcopy hrest ih => exact ih.source _ _ _
  | cut hlimit hdepth hline hchain hnew hrest ih =>
    exact (Row.Inlines.blockRows hnew (.of_opened_eq_nil (opened_cutRows _ _ _) _) _ _).append ih
  | inline hdepth hline hchain hnew hbody hrest ihbody ihrest =>
    exact (Row.Inlines.blockRows hnew ihbody _ _).append ihrest

theorem before_subset (h : Expands index limit depth chain origin number lines before rows after) :
    before ⊆ after := by
  rw [h.inlines.after_eq]
  exact List.subset_append_left before (Row.opened rows)

/-- An include of a known file leaves it inlined, if the headers being expanded are inlined
already. -/
theorem mem_after (h : Expands index limit depth chain origin number lines before rows after)
    (hchain : chain ⊆ before) :
    ∀ line ∈ lines, ∀ target, index.included? line = some target → target.name ∈ after := by
  induction h with
  | done => simp
  | keep hcopy hrest ih =>
    refine List.forall_mem_cons.mpr ⟨fun target htarget => hrest.before_subset ?_, ih hchain⟩
    rcases hcopy.of_included? htarget with ⟨-, hc⟩ | ⟨-, -, hi⟩
    · exact hchain hc
    · exact hi
  | cut hlimit hdepth hline hc hnew hrest ih =>
    refine List.forall_mem_cons.mpr
      ⟨fun target htarget => hrest.before_subset ?_,
        ih (List.subset_append_of_subset_left _ hchain)⟩
    rw [← Option.some.inj (hline.symm.trans htarget)]
    exact List.mem_append_right _ List.mem_cons_self
  | inline hdepth hline hc hnew hbody hrest ihbody ihrest =>
    have hgrown :=
      List.Subset.trans (List.subset_append_of_subset_left _ hchain) hbody.before_subset
    refine List.forall_mem_cons.mpr
      ⟨fun target htarget => hrest.before_subset (hbody.before_subset ?_), ihrest hgrown⟩
    rw [← Option.some.inj (hline.symm.trans htarget)]
    exact List.mem_append_right _ List.mem_cons_self

theorem wellNested (h : Expands index limit depth chain origin number lines before rows after) :
    Row.WellNested rows := by
  induction h with
  | done => exact .nil
  | keep hcopy hrest ih => exact (Row.WellNested.source _ _ _).append ih
  | cut hlimit hdepth hline hchain hnew hrest ih =>
    exact ((wellNested_cutRows _ _ _).blockRows _ _ _).append ih
  | inline hdepth hline hchain hnew hbody hrest ihbody ihrest =>
    exact (ihbody.blockRows _ _ _).append ihrest

/-- If no file lies too deep, the limit does not matter. -/
theorem unlimited (h : Expands index limit depth chain origin number lines before rows after)
    (huncut : Row.Uncut rows) :
    Expands index none depth chain origin number lines before rows after := by
  induction h with
  | done => exact .done
  | keep hcopy hrest ih => exact .keep hcopy (ih (List.forall_mem_cons.mp huncut).2)
  | cut hlimit hdepth hline hchain hnew hrest ih =>
    have hbody := Row.uncut_blockRows.mp (Row.uncut_append.mp huncut).1
    exact absurd hbody (Row.not_uncut_of_mem List.mem_cons_self)
  | inline hdepth hline hchain hnew hbody hrest ihbody ihrest =>
    obtain ⟨hblock, hlater⟩ := Row.uncut_append.mp huncut
    exact .inline (by simp) hline hchain hnew (ihbody (Row.uncut_blockRows.mp hblock))
      (ihrest hlater)

end Expands

/-! ## The bound on nesting -/

namespace Index

/-- The number of files whose names are not among those given. -/
def unseen (index : Index) (names : List String) : Nat :=
  index.files.countP fun p => decide (p.file.name ∉ names)

variable {index : Index}

theorem unseen_le_length (names : List String) : index.unseen names ≤ index.files.length :=
  List.countP_le_length

theorem unseen_le_of_subset {names names' : List String} (h : names ⊆ names') :
    index.unseen names' ≤ index.unseen names := by
  refine List.countP_mono_left fun p _ hp => ?_
  simp only [decide_eq_true_eq] at hp ⊢
  exact fun hmem => hp (h hmem)

/-- A new name leaves fewer unseen. -/
theorem unseen_append_lt {file : TextFile} (hfile : index.Holds file) {names : List String}
    (hnew : file.name ∉ names) : index.unseen (names ++ [file.name]) < index.unseen names := by
  obtain ⟨p, hp, rfl⟩ := hfile.mem
  obtain ⟨earlier, later, hfiles⟩ := List.append_of_mem hp
  have hle : ∀ ps : List Placed,
      ps.countP (fun q => decide (q.file.name ∉ names ++ [p.file.name])) ≤
      ps.countP (fun q => decide (q.file.name ∉ names)) := by
    intro ps
    refine List.countP_mono_left fun q _ hq => ?_
    simp only [List.mem_append, not_or, decide_eq_true_eq] at hq ⊢
    exact hq.1
  unfold unseen
  rw [hfiles, List.countP_append, List.countP_append, List.countP_cons, List.countP_cons]
  have hearlier := hle earlier
  have hlater := hle later
  simp only [List.mem_append, List.mem_singleton, or_true, not_true, decide_false, hnew,
    not_false_eq_true, decide_true, if_true, Bool.false_eq_true, if_false] at *
  omega

end Index

/-! ## The functions satisfy the relation -/

section Expand

variable {index : Index} {chain : List String} {origin : String}

/-- What becomes of one line: it is kept in some form, or a new header is inlined. -/
theorem expandLine_cases (inside : TextFile → List String → Expanded) (number : Nat) (line : Line)
    (inlined : List String) :
    (∃ copy, Kept index chain inlined line copy ∧
      expandLine index chain origin inside number line inlined =
        ⟨[.source origin number copy], inlined⟩) ∨
    (∃ file, index.included? line = some file ∧ file.name ∉ chain ∧ file.name ∉ inlined ∧
      expandLine index chain origin inside number line inlined =
        ⟨blockRows origin number file.name (inside file (inlined ++ [file.name])).rows,
          (inside file (inlined ++ [file.name])).inlined⟩) := by
  unfold expandLine
  cases hq : quotedInclude? line with
  | none => exact Or.inl ⟨_, .plain hq, rfl⟩
  | some name =>
    simp only
    cases ht : index.target? name with
    | none =>
      have hr : resolve index chain inlined name = .unknown := by simp [resolve, ht]
      rw [hr]
      exact Or.inl ⟨_, .unresolved hq ht, rfl⟩
    | some target =>
      have hline : index.included? line = some target.file := by simp [Index.included?, hq, ht]
      by_cases hc : target.file.name ∈ chain
      · have hr : resolve index chain inlined name = .recursive target.file.name := by
          simp [resolve, ht, hc]
        rw [hr]
        exact Or.inl ⟨_, .recursive hline hc, rfl⟩
      · by_cases hi : target.file.name ∈ inlined
        · have hr : resolve index chain inlined name = .duplicate target.file.name := by
            simp [resolve, ht, hc, hi]
          rw [hr]
          exact Or.inl ⟨_, .duplicate hline hc hi, rfl⟩
        · have hr : resolve index chain inlined name = .inline target.file := by
            simp [resolve, ht, hc, hi]
          rw [hr]
          exact Or.inr ⟨target.file, hline, hc, hi, rfl⟩

/-- The lines of a file are expanded if its new headers are.  `levels` bounds how many names are
unseen at the start, so that fewer are when a header is entered. -/
theorem expands_expandLines {bound depth : Int} {inside : TextFile → List String → Expanded}
    {levels : Nat} (hcut : bound < depth + 1 → ∀ file inlined, index.unseen inlined < levels →
      inside file inlined = ⟨cutRows bound file.name (headerLines file), inlined⟩)
    (hinside : depth + 1 ≤ bound → ∀ file inlined, index.unseen inlined < levels →
      Expands index (some bound) (depth + 1) (chain ++ [file.name]) file.name 1
        (headerLines file) inlined (inside file inlined).rows (inside file inlined).inlined)
    (lines : List Line) (number : Nat) (inlined : List String)
    (hseen : index.unseen inlined ≤ levels) :
    Expands index (some bound) depth chain origin number lines inlined
      (expandLines index chain origin inside number lines inlined).rows
      (expandLines index chain origin inside number lines inlined).inlined := by
  induction lines generalizing number inlined with
  | nil => exact .done
  | cons line lines ih =>
    simp only [expandLines]
    rcases expandLine_cases inside number line inlined with
      ⟨copy, hcopy, heq⟩ | ⟨file, hline, hc, hi, heq⟩
    · rw [heq]
      exact .keep hcopy (ih (number + 1) inlined hseen)
    · rw [heq]
      have hless : index.unseen (inlined ++ [file.name]) < levels :=
        Nat.lt_of_lt_of_le (Index.unseen_append_lt (Index.holds_of_included? hline) hi) hseen
      by_cases hdepth : bound < depth + 1
      · rw [hcut hdepth file _ hless]
        exact .cut rfl hdepth hline hc hi (ih (number + 1) _ (Nat.le_of_lt hless))
      · have hbody := hinside (by omega) file _ hless
        have hafter : index.unseen _ ≤ index.unseen _ :=
          Index.unseen_le_of_subset hbody.before_subset
        refine .inline ?_ hline hc hi hbody (ih (number + 1) _ (by omega))
        intro b hb
        cases hb
        omega

theorem expandAt_of_limit_lt {ctx : Context} (h : ctx.limit < ctx.depth) (levels : Nat)
    (origin : String) (lines : List Line) :
    expandAt index levels ctx origin lines = ⟨cutRows ctx.limit origin lines, ctx.inlined⟩ := by
  unfold expandAt
  rw [if_pos h]
  rfl

/-- It is enough to have as many levels as there are unseen names. -/
theorem expands_expandAt (levels : Nat) (ctx : Context) (origin : String) (lines : List Line)
    (hdepth : ctx.depth ≤ ctx.limit) (hseen : index.unseen ctx.inlined ≤ levels) :
    Expands index (some ctx.limit) ctx.depth ctx.chain origin 1 lines ctx.inlined
      (expandAt index levels ctx origin lines).rows
        (expandAt index levels ctx origin lines).inlined := by
  induction levels generalizing ctx origin lines with
  | zero =>
    unfold expandAt
    rw [if_neg (by omega)]
    -- no name is unseen, so no header is entered
    exact expands_expandLines (fun _ _ _ h => absurd h (Nat.not_lt_zero _))
      (fun _ _ _ h => absurd h (Nat.not_lt_zero _)) lines 1 ctx.inlined hseen
  | succ levels ih =>
    rw [expandAt, if_neg (by omega)]
    refine expands_expandLines (fun hcut file inlined _ => ?_)
      (fun hin file inlined hless => ?_) lines 1 ctx.inlined hseen
    · exact expandAt_of_limit_lt hcut levels file.name (headerLines file)
    · exact ih { ctx.enter file.name with inlined := inlined } file.name (headerLines file) hin
        (Nat.le_of_lt_succ hless)

theorem expand_of_limit_lt {ctx : Context} (h : ctx.limit < ctx.depth) (origin code : String) :
    expand index ctx origin code =
      ⟨cutRows ctx.limit origin (splitLines code.toList), ctx.inlined⟩ :=
  expandAt_of_limit_lt h index.files.length origin (splitLines code.toList)

/-- **`expand` expands.** -/
theorem expands_expand {ctx : Context} (h : ctx.depth ≤ ctx.limit) (origin code : String) :
    Expands index (some ctx.limit) ctx.depth ctx.chain origin 1 (splitLines code.toList) ctx.inlined
      (expand index ctx origin code).rows (expand index ctx origin code).inlined :=
  expands_expandAt index.files.length ctx origin (splitLines code.toList) h
    (Index.unseen_le_length ctx.inlined)

/-- Whatever the context, an expansion inlines each header once, and none that was inlined
before. -/
theorem inlines_expand (ctx : Context) (origin code : String) :
    Row.Inlines ctx.inlined (expand index ctx origin code).rows
      (expand index ctx origin code).inlined := by
  by_cases h : ctx.limit < ctx.depth
  · rw [expand_of_limit_lt h]
    exact .of_opened_eq_nil (opened_cutRows _ _ _) _
  · exact (expands_expand (by omega) origin code).inlines

theorem wellNested_expandAt (levels : Nat) (ctx : Context) (origin : String) (lines : List Line)
    (hseen : index.unseen ctx.inlined ≤ levels) :
    Row.WellNested (expandAt index levels ctx origin lines).rows := by
  by_cases hlimit : ctx.limit < ctx.depth
  · rw [expandAt_of_limit_lt hlimit]
    exact wellNested_cutRows _ _ _
  · exact (expands_expandAt levels ctx origin lines (by omega) hseen).wellNested

theorem wellNested_expand (ctx : Context) (origin code : String) :
    Row.WellNested (expand index ctx origin code).rows :=
  wellNested_expandAt index.files.length ctx origin _ (Index.unseen_le_length ctx.inlined)

end Expand

end Amalgam
