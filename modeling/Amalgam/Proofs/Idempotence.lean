import Amalgam.Proofs.Attribution

/-!
# Expanding an expanded text

Whatever an expansion puts out is left alone by another one: an include that is still there names no
known file, and nothing that is put out in addition looks like an include.

* `Kept.included?_render` — what is put out for a line that is kept includes no known file.
* `Row.Inert` — the text of a row is one line, and it includes no known file.
* `stable_iff` — a text stays as it is under expansion if and only if it includes no known file.
* `expand_expand` — the text of an expansion stays as it is, if no file lies too deep.
-/

set_option autoImplicit false

namespace Amalgam

/-! ## Lines that include nothing -/

/-- An include starts with blanks or with a hash. -/
theorem quotedInclude?_of_head {c : Char} (hblank : isInlineBlank c = false) (hhash : c ≠ '#')
    (cs : List Char) :
    quotedInclude? (c :: cs) = none := by
  have hdrop : (c :: cs).dropWhile isInlineBlank = c :: cs := by simp [hblank]
  unfold quotedInclude? dropDirective?
  rw [hdrop]
  simp [hhash]

theorem quotedInclude?_positionDirective (number : Nat) (name : String) :
    quotedInclude? (positionDirective number name).toList = none := by
  rw [positionDirective_toList]
  rfl

theorem Index.included?_of_quotedInclude? {index : Index} {line : Line}
    (h : quotedInclude? line = none) :
    index.included? line = none := by
  rw [included?, h]
  rfl

/-- A line includes no known file if and only if what it names is unknown. -/
theorem Index.included?_eq_none_iff {index : Index} {line : Line} :
    index.included? line = none ↔ ∀ name, quotedInclude? line = some name →
      index.target? name = none := by
  unfold included?
  cases quotedInclude? line with
  | none => simp
  | some name => simp

/-- **What is put out for a line that is kept includes no known file.** -/
theorem Kept.included?_render {index : Index} {chain inlined : List String} {line : Line}
    {copy : Copy} (h : Kept index chain inlined line copy) :
    index.included? copy.render = none := by
  cases h with
  | plain hplain => exact Index.included?_of_quotedInclude? hplain
  | unresolved hquoted hunknown =>
    refine Index.included?_eq_none_iff.mpr fun name hname => ?_
    rw [← Option.some.inj (hquoted.symm.trans hname)]
    exact hunknown
  | recursive | duplicate =>
    exact Index.included?_of_quotedInclude? (quotedInclude?_of_head (by decide) (by decide) _)

/-! ## Inert rows -/

/-- The text of the row is one line, and it includes no known file. -/
structure Row.Inert (index : Index) (row : Row) : Prop where
  no_newline : '\n' ∉ row.render
  included?_render : index.included? row.render = none

namespace Row.Inert

variable {index : Index}

/-- A row that is no directive and names a file. -/
theorem comment {row : Row} {first : Char} {rest : List Char} (hrender : row.render = first :: rest)
    (hnewline : '\n' ∉ row.render) (hblank : isInlineBlank first = false) (hhash : first ≠ '#') :
    row.Inert index := by
  refine ⟨hnewline, ?_⟩
  rw [hrender]
  exact Index.included?_of_quotedInclude? (quotedInclude?_of_head hblank hhash rest)

theorem lineIs {file : String} (h : '\n' ∉ file.toList) (number : Nat) :
    Inert index (.lineIs number file) :=
  ⟨newline_not_mem_positionDirective h number,
    Index.included?_of_quotedInclude? (quotedInclude?_positionDirective number file)⟩

theorem blockRows {origin key : String} {body : List Row} (horigin : '\n' ∉ origin.toList)
    (hkey : '\n' ∉ key.toList) (hbody : ∀ row ∈ body, row.Inert index) (number : Nat) :
    ∀ row ∈ blockRows origin number key body, row.Inert index := by
  have hopen : Inert index (.openBlock key) :=
    comment rfl (Legible.openBlock hkey).no_newline (by decide) (by decide)
  have hclose : Inert index (.closeBlock key) :=
    comment rfl (Legible.closeBlock hkey).no_newline (by decide) (by decide)
  unfold Amalgam.blockRows
  simp only [List.forall_mem_cons, List.forall_mem_append]
  exact ⟨hopen, lineIs hkey 1, fun row hrow => hbody row (mem_of_mem_complete hrow), hclose,
    lineIs horigin (number + 1), by simp⟩

end Row.Inert

/-- What is put out for a line that is kept is one line. -/
theorem Kept.no_newline {index : Index} {chain inlined : List String} {line : Line} {copy : Copy}
    (h : Kept index chain inlined line copy)
    (hindex : ∀ file, index.Holds file → '\n' ∉ file.name.toList) (hline : '\n' ∉ line) :
    '\n' ∉ copy.render := by
  cases h with
  | plain | unresolved => exact hline
  | recursive h =>
    exact (PlainLine.comment (by decide) (by decide) (by decide)
      (hindex _ (Index.holds_of_included? h))).no_newline
  | duplicate h =>
    exact (PlainLine.comment (by decide) (by decide) (by decide)
      (hindex _ (Index.holds_of_included? h))).no_newline

namespace Expands

variable {index : Index} {limit : Option Int} {depth : Int} {chain : List String} {origin : String}
  {number : Nat} {lines : List Line} {before after : List String} {rows : List Row}

/-- Where no file lies too deep, every row is inert. -/
theorem inert (h : Expands index none depth chain origin number lines before rows after)
    (hindex : ∀ file, index.Holds file → '\n' ∉ file.name.toList) (horigin : '\n' ∉ origin.toList)
    (hlines : ∀ line ∈ lines, '\n' ∉ line) : ∀ row ∈ rows, row.Inert index := by
  induction h with
  | done => simp
  | keep hcopy hrest ih =>
    obtain ⟨hline, hlater⟩ := List.forall_mem_cons.mp hlines
    exact List.forall_mem_cons.mpr
      ⟨⟨hcopy.no_newline hindex hline, hcopy.included?_render⟩, ih horigin hlater⟩
  | cut hlimit => cases hlimit
  | inline hdepth hline hchain hnew hbody hrest ihbody ihrest =>
    have hheader := hindex _ (Index.holds_of_included? hline)
    have hinside := ihbody hheader fun line hmem => not_mem_of_mem_cutAt hmem
    refine List.forall_mem_append.mpr ⟨Row.Inert.blockRows horigin hheader hinside _, ?_⟩
    exact ihrest horigin (List.forall_mem_cons.mp hlines).2

theorem rows_ne_nil (h : Expands index limit depth chain origin number lines before rows after)
    (hlines : lines ≠ []) : rows ≠ [] := by
  cases h with
  | done => exact absurd rfl hlines
  | keep | cut | inline => simp [blockRows]

/-- Lines that include no known file are copied, and nothing is inlined. -/
theorem eq_of_inert (h : Expands index limit depth chain origin number lines before rows after)
    (hlines : ∀ line ∈ lines, index.included? line = none) :
    rows.map Row.render = lines ∧ after = before := by
  induction h with
  | done => exact ⟨rfl, rfl⟩
  | keep hcopy hrest ih =>
    obtain ⟨hline, hlater⟩ := List.forall_mem_cons.mp hlines
    obtain ⟨hrows, hafter⟩ := ih hlater
    refine ⟨?_, hafter⟩
    rw [List.map_cons, hrows]
    exact congrArg (· :: _) (hcopy.render_eq hline)
  | cut hlimit hdepth hline | inline hdepth hline =>
    have hnone := hlines _ List.mem_cons_self
    rw [hline] at hnone
    cases hnone

end Expands

/-! ## Stable texts -/

/-- The text that rows make up. -/
def Expanded.text (e : Expanded) : String := String.ofList (Row.text e.rows)

/-- The text stays as it is whenever it is expanded, and nothing is inlined. -/
def Index.Stable (index : Index) (code : String) : Prop :=
  ∀ (origin : String) (ctx : Context), ctx.depth ≤ ctx.limit →
    (expand index ctx origin code).text = code ∧
    (expand index ctx origin code).inlined = ctx.inlined

/-- Every include in the text names a file that is not known. -/
def Index.NamesUnknown (index : Index) (code : String) : Prop :=
  ∀ line ∈ splitLines code.toList, ∀ name, quotedInclude? line = some name →
    index.target? name = none

theorem Index.namesUnknown_iff {index : Index} {code : String} :
    index.NamesUnknown code ↔ ∀ line ∈ splitLines code.toList, index.included? line = none := by
  simp only [NamesUnknown, included?_eq_none_iff]

/-- **A text is stable if and only if every include in it names an unknown file.** -/
theorem Index.stable_iff {index : Index} {code : String} :
    index.Stable code ↔ index.NamesUnknown code := by
  rw [namesUnknown_iff]
  constructor
  · intro h line hline
    -- outside of all headers, an include of a known file would leave it inlined
    have hinlined := (h "" (Context.fresh 0) (Int.le_refl 0)).2
    have hexpands := @expands_expand index (Context.fresh 0) (Int.le_refl 0) "" code
    cases hincluded : index.included? line with
    | none => rfl
    | some target =>
      have hmem := hexpands.mem_after (List.Subset.refl _) line hline target hincluded
      rw [hinlined] at hmem
      cases hmem
  · intro h origin ctx hdepth
    obtain ⟨hrows, hinlined⟩ := (expands_expand hdepth origin code).eq_of_inert h
    refine ⟨?_, hinlined⟩
    rw [Expanded.text, Row.text, ← eq_joinLines_of_splitLines hrows.symm]
    exact String.ofList_toList

theorem Expanded.splitLines_text {index : Index} {e : Expanded} (hne : e.rows ≠ [])
    (h : ∀ row ∈ e.rows, row.Inert index) : splitLines e.text.toList = e.rows.map Row.render := by
  rw [Expanded.text, String.toList_ofList]
  exact Row.splitLines_text hne fun row hrow => (h row hrow).no_newline

/-- **The text of an expansion is stable**, if no file lies too deep: each include that is left in
it names an unknown file, which is what it means for a text to be stable. -/
theorem expand_expand (index : Index) (hindex : ∀ p ∈ index.files, '\n' ∉ p.file.name.toList)
    (ctx : Context) (origin code : String) (horigin : '\n' ∉ origin.toList)
    (huncut : Row.Uncut (expand index ctx origin code).rows) :
    (∀ (origin' : String) (ctx' : Context), ctx'.depth ≤ ctx'.limit →
      (expand index ctx' origin' (expand index ctx origin code).text).text =
        (expand index ctx origin code).text ∧
      (expand index ctx' origin' (expand index ctx origin code).text).inlined = ctx'.inlined) ∧
    (∀ line ∈ splitLines (expand index ctx origin code).text.toList, ∀ name, quotedInclude? line =
      some name →
      index.target? name = none) ∧
    ∀ text, index.Stable text ↔ index.NamesUnknown text := by
  have hdepth : ctx.depth ≤ ctx.limit := by
    refine Int.not_lt.mp fun hcut => ?_
    rw [expand_of_limit_lt hcut] at huncut
    exact Row.not_uncut_of_mem List.mem_cons_self huncut
  have hexpands := (@expands_expand index ctx hdepth origin code).unlimited huncut
  have hnames : ∀ file, index.Holds file → '\n' ∉ file.name.toList := by
    intro file hfile
    obtain ⟨p, hp, rfl⟩ := hfile.mem
    exact hindex p hp
  have hinert := hexpands.inert hnames horigin fun line hline => not_mem_of_mem_cutAt hline
  have hunknown : index.NamesUnknown (expand index ctx origin code).text := by
    rw [Index.namesUnknown_iff, Expanded.splitLines_text
      (hexpands.rows_ne_nil (cutAt_ne_nil _)) hinert]
    intro line hline
    obtain ⟨row, hrow, rfl⟩ := List.mem_map.mp hline
    exact (hinert row hrow).included?_render
  exact ⟨Index.stable_iff.mpr hunknown, hunknown, fun _ => Index.stable_iff⟩

/-- A header that includes itself and an unknown file, and one that includes it under another
path. -/
def knottedHeaders : List TextFile :=
  [⟨"a.h", "#pragma once\n#include \"a.h\"\n#include \"lib/x.h\""⟩,
    ⟨"sub/b\\c.h", "  # include \"sub/a.h\" // again\nB"⟩]

def knottedCode : String := "#include \"c.h\"\n#include \"a.h\"\n#include <a.h>\n"

theorem expand_expand_knottedHeaders :
    (∀ p ∈ (Index.ofFiles knottedHeaders).files, '\n' ∉ p.file.name.toList) ∧ '\n' ∉ "m.c".toList ∧
      Row.Uncut (expand (Index.ofFiles knottedHeaders) ⟨3, ["q.h"], ["z.h"], 5⟩ "m.c"
        knottedCode).rows ∧
      (expand (Index.ofFiles knottedHeaders) ⟨3, ["q.h"], ["z.h"], 5⟩ "m.c" knottedCode).inlined =
        ["z.h", "sub/b\\c.h", "a.h"] ∧
      ∀ text, text =
        (expand (Index.ofFiles knottedHeaders) ⟨3, ["q.h"], ["z.h"], 5⟩ "m.c" knottedCode).text →
        (expand (Index.ofFiles knottedHeaders) (Context.fresh 0) "n.c" text).text = text ∧
          (expand (Index.ofFiles knottedHeaders) (Context.fresh 0) "n.c" text).inlined = [] := by
  have hindex : ∀ p ∈ (Index.ofFiles knottedHeaders).files, '\n' ∉ p.file.name.toList := by decide
  have horigin : '\n' ∉ "m.c".toList := by decide
  have huncut : Row.Uncut
      (expand (Index.ofFiles knottedHeaders) ⟨3, ["q.h"], ["z.h"], 5⟩ "m.c" knottedCode).rows := by
    decide
  have h :=
    expand_expand (Index.ofFiles knottedHeaders) hindex
      ⟨3, ["q.h"], ["z.h"], 5⟩ "m.c" knottedCode horigin huncut
  refine ⟨hindex, horigin, huncut, by decide, ?_⟩
  rintro text rfl
  exact h.1 "n.c" (Context.fresh 0) (Int.le_refl 0)

end Amalgam
