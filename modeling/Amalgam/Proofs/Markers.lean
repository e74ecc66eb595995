import Amalgam.Proofs.CommentScan
import Amalgam.Proofs.Origin
import Amalgam.Proofs.Selection

/-!
# Markers

An expansion puts rows of its own between the lines of the files: remarks in the place of what is
left out, a frame around each inlined header, and line directives.  All of them name a file, and a
name can be any text.  Only the line directive escapes some of it, so what a marker is for a
compiler depends on the name.

* `OneComment` — one block comment on one line; a compiler that comes to it goes on after it as
  before it.
* `Row.confines_render_iff` — for which names a marker is what it should be, for each kind of
  marker.
* `Row.From.names` — the name of a marker is that of a file.
* `markers_confined_iff` — all markers of an expansion and of a bundle, and the lines that they take
  in its text.
* `marker_comments_confined_fails` — a name that closes a comment lets the rest of the marker into
  the program.
-/

set_option autoImplicit false

namespace Amalgam

/-! ## The end of a block comment -/

theorem closesBlock_cons {c : Char} {cs : List Char}
    (h : ∀ rest, c = '*' → cs = '/' :: rest → False) :
    closesBlock (c :: cs) = closesBlock cs := by
  rw [closesBlock]
  exact h

theorem closesBlock_eq_true_iff (cs : List Char) : closesBlock cs = true ↔ ['*', '/'] <:+: cs := by
  fun_induction closesBlock cs with
  | case1 => simp
  | case2 rest => exact ⟨fun _ => ⟨[], rest, rfl⟩, fun _ => rfl⟩
  | case3 c cs hclose ih =>
    rw [ih, List.infix_cons_iff]
    refine ⟨Or.inr, fun h => h.resolve_left ?_⟩
    -- a comment that closes at `c` is the case before
    rintro ⟨rest, hrest⟩
    obtain ⟨rfl, rfl⟩ := List.cons.inj hrest
    exact hclose rest rfl rfl

theorem closesBlock_append_of_not_mem {cs : List Char} (h : '*' ∉ cs) (rest : List Char) :
    closesBlock (cs ++ rest) = closesBlock rest := by
  induction cs with
  | nil => rfl
  | cons c cs ih =>
    simp only [List.mem_cons, not_or] at h
    rw [List.cons_append, closesBlock_cons fun _ hc _ => h.1 hc.symm, ih h.2]

/-- Nothing closes across a character that is no slash. -/
theorem closesBlock_append_cons {c : Char} (hc : c ≠ '/') (cs rest : List Char) :
    closesBlock (cs ++ c :: rest) = (closesBlock cs || closesBlock (c :: rest)) := by
  fun_induction closesBlock cs with
  | case1 => rfl
  | case2 => rfl
  | case3 d cs hclose ih =>
    rw [List.cons_append, closesBlock_cons, ih]
    intro tail hd htail
    cases cs with
    | nil => exact hc (List.cons.inj htail).1
    | cons e cs => exact hclose cs hd (by rw [(List.cons.inj htail).1])

theorem scanComments_block_append {body : List Char} (h : closesBlock (body ++ ['*']) = false)
    (rest : List Char) :
    scanComments .block (body ++ '*' :: '/' :: rest) = scanComments .code rest := by
  induction body with
  | nil => rw [List.nil_append, scanComments]
  | cons c body ih =>
    have hclose : ∀ tail, c = '*' → body ++ ['*'] = '/' :: tail → False := by
      rintro tail rfl htail
      rw [List.cons_append, htail] at h
      cases h
    rw [List.cons_append, closesBlock_cons hclose] at h
    rw [List.cons_append, scanComments_block_cons, ih h]
    intro tail hc htail
    cases body with
    | nil => cases htail
    | cons d body => exact hclose _ hc (by rw [(List.cons.inj htail).1]; rfl)

theorem scanComments_line_append {cs : List Char} (h : '\n' ∉ cs) (rest : List Char) :
    scanComments .line (cs ++ '\n' :: rest) = some '\n' :: scanComments .code rest := by
  induction cs with
  | nil => rw [List.nil_append, scanComments]
  | cons c cs ih =>
    simp only [List.mem_cons, not_or] at h
    rw [List.cons_append, scanComments_line_cons (Ne.symm h.1), ih h.2]

/-! ## One comment -/

/-- One block comment on one line: after its opening, its last two characters are the first that
close it. -/
def OneComment (cs : Line) : Prop :=
  '\n' ∉ cs ∧ ∃ body, cs = '/' :: '*' :: (body ++ ['*', '/']) ∧ ¬ ['*', '/'] <:+: body ++ ['*']

theorem OneComment.scanComments_append {cs : Line} (h : OneComment cs) (rest : List Char) :
    scanComments .code (cs ++ rest) = none :: scanComments .code rest := by
  obtain ⟨-, body, rfl, hbody⟩ := h
  rw [← closesBlock_eq_true_iff, Bool.not_eq_true] at hbody
  have hcloses : closesBlock (body ++ '*' :: '/' :: rest) = true :=
    (closesBlock_eq_true_iff _).mpr ⟨body, rest, by simp⟩
  have happend : '/' :: '*' :: (body ++ ['*', '/']) ++ rest = '/' :: '*' ::
      (body ++ '*' :: '/' :: rest) := by simp
  rw [happend, scanComments, if_pos hcloses, scanComments_block_append hbody]

/-- A name between texts that hold no star is in one comment unless it closes the comment itself. -/
theorem oneComment_iff {opening name closing : List Char} {c : Char} (hc : c ≠ '/')
    (hopen : '*' ∉ opening) (hclose : '*' ∉ c :: closing) (hline : '\n' ∉ opening ++ c :: closing) :
    OneComment ('/' :: '*' :: (opening ++ name ++ (c :: closing ++ ['*', '/']))) ↔
      '\n' ∉ name ∧ ¬ ['*', '/'] <:+: name := by
  have hcloses : closesBlock (opening ++ name ++ c :: closing ++ ['*']) = closesBlock name := by
    rw [List.append_assoc, List.append_assoc, closesBlock_append_of_not_mem hopen, List.cons_append,
      closesBlock_append_cons hc, ← List.cons_append, closesBlock_append_of_not_mem hclose]
    simp [closesBlock]
  have hnewline : '\n' ∉ '/' :: '*' :: (opening ++ name ++ (c :: closing ++ ['*', '/'])) ↔
      '\n' ∉ name := by
    simp only [List.mem_append, List.mem_cons, not_or] at hline
    simp [hline]
  rw [OneComment, hnewline, ← closesBlock_eq_true_iff name, ← hcloses, closesBlock_eq_true_iff]
  refine and_congr_right fun _ => ⟨?_, fun h => ⟨_, by simp, h⟩⟩
  rintro ⟨body, hbody, h⟩
  have hends : opening ++ name ++ c :: closing ++ ['*', '/'] = body ++ ['*', '/'] := by
    rw [← (List.cons.inj (List.cons.inj hbody).2).2, List.append_assoc]
  rwa [List.append_cancel_right hends]

/-! ## Lines of a text -/

theorem Row.splitLines_text_eq_flatMap {rows : List Row} (hne : rows ≠ []) :
    splitLines (Row.text rows) = rows.flatMap fun row => splitLines row.render := by
  have hlines :=
    @cutAt_joinAt_eq_flatMap '\n' _ (List.map_eq_nil_iff.not.mpr hne : rows.map Row.render ≠ [])
  rwa [List.flatMap_map] at hlines

/-! ## Kinds of markers -/

/-- How a marker is written. -/
inductive Marker where
  /-- In a block comment. -/
  | remark
  /-- In a line comment, above or below an inlined header. -/
  | frame
  /-- As a line directive. -/
  | position
  deriving DecidableEq

/-- The kind of a row that is a marker, and the file that it names. -/
def Row.marker? : Row → Option (Marker × String)
  | .source _ _ (.plain _) | .source _ _ (.unresolved _ _) | .gap => none
  | .source _ _ (.recursive key) | .source _ _ (.duplicate key) => some (.remark, key)
  | .tooDeep _ file => some (.remark, file)
  | .openBlock key | .closeBlock key => some (.frame, key)
  | .lineIs _ file => some (.position, file)

/-- The text is a marker of this kind and nothing else. -/
def Marker.Confines : Marker → Line → Prop
  | .remark, cs => OneComment cs
  | .frame, cs | .position, cs => splitLines cs = [cs]

/-- The names that a marker of this kind can hold. -/
def Marker.Admits : Marker → List Char → Prop
  | .remark, name => '\n' ∉ name ∧ ¬ ['*', '/'] <:+: name
  | .frame, name | .position, name => '\n' ∉ name

theorem count_append_of_not_mem {c : Char} {opening closing : List Char} (hopen : c ∉ opening)
    (hclose : c ∉ closing) (name : List Char) :
    (opening ++ name ++ closing).count c = name.count c := by
  rw [List.count_append, List.count_append, List.count_eq_zero_of_not_mem hopen,
    List.count_eq_zero_of_not_mem hclose, Nat.zero_add, Nat.add_zero]

namespace Row

variable {row : Row} {kind : Marker} {name : String}

/-- A marker has the newlines of the name. -/
theorem count_newline_render (h : row.marker? = some (kind, name)) :
    row.render.count '\n' = name.toList.count '\n' := by
  cases row with
  | source file number copy =>
    cases copy with
    | plain | unresolved => cases h
    | recursive | duplicate => cases h; exact count_append_of_not_mem (by decide) (by decide) _
  | openBlock | closeBlock | tooDeep =>
    cases h; exact count_append_of_not_mem (by decide) (by decide) _
  | lineIs number file => cases h; exact count_newline_positionDirective number name
  | gap => cases h

theorem newline_not_mem_render_iff (h : row.marker? = some (kind, name)) :
    '\n' ∉ row.render ↔ '\n' ∉ name.toList := by
  rw [← List.count_eq_zero, ← List.count_eq_zero, count_newline_render h]

theorem length_splitLines_render (h : row.marker? = some (kind, name)) :
    (splitLines row.render).length = name.toList.count '\n' + 1 := by
  rw [length_cutAt, count_newline_render h]

/-- A remark is a comment of its own if the name is admitted. -/
theorem oneComment_render_iff (h : row.marker? = some (.remark, name)) :
    OneComment row.render ↔ Marker.remark.Admits name.toList := by
  cases row with
  | source file number copy =>
    cases copy with
    | plain | unresolved => cases h
    | recursive key =>
      cases h
      exact @oneComment_iff " skipped recursive include \"".toList name.toList [' '] '"' (by decide)
        (by decide) (by decide) (by decide)
    | duplicate key =>
      cases h
      exact @oneComment_iff " skipped duplicate include \"".toList name.toList [' '] '"' (by decide)
        (by decide) (by decide) (by decide)
  | tooDeep limit file =>
    cases h
    exact @oneComment_iff " include depth limit exceeded at ".toList name.toList [] ' ' (by decide)
      (by decide) (by decide) (by decide)
  | openBlock | closeBlock | lineIs | gap => cases h

/-- **A marker is confined exactly if the name is one that its kind admits.** -/
theorem confines_render_iff (h : row.marker? = some (kind, name)) :
    kind.Confines row.render ↔ kind.Admits name.toList := by
  cases kind with
  | remark => exact oneComment_render_iff h
  | frame => exact cutAt_eq_singleton_iff.trans (newline_not_mem_render_iff h)
  | position => exact cutAt_eq_singleton_iff.trans (newline_not_mem_render_iff h)

theorem exists_render_eq_of_frame (h : row.marker? = some (.frame, name)) :
    ∃ rest, row.render = '/' :: '/' :: rest := by
  cases row with
  | source file number copy => cases copy <;> cases h
  | openBlock | closeBlock => exact ⟨_, rfl⟩
  | lineIs | tooDeep | gap => cases h

/-- A compiler that comes to the line of a comment goes on behind it as if the line were blank. -/
theorem scanComments_render (h : row.marker? = some (kind, name)) (hkind : kind ≠ .position)
    (hname : kind.Admits name.toList) (rest : List Char) :
    scanComments .code (row.render ++ '\n' :: rest) = none :: some '\n' ::
      scanComments .code rest := by
  cases kind with
  | remark =>
    rw [((oneComment_render_iff h).mpr hname).scanComments_append, scanComments_code_cons] <;> simp
  | frame =>
    have hline := (newline_not_mem_render_iff h).mpr hname
    obtain ⟨text, htext⟩ := exists_render_eq_of_frame h
    rw [htext] at hline ⊢
    simp only [List.mem_cons, not_or] at hline
    rw [List.cons_append, List.cons_append, scanComments, scanComments_line_append hline.2.2]
  | position => exact absurd rfl hkind

end Row

/-! ## Markers of expansions and bundles -/

theorem LineOf.newline_not_mem {file : TextFile} {line : Line} (h : LineOf file line) :
    '\n' ∉ line := by
  obtain ⟨original, horiginal, rfl | rfl⟩ := h
  · exact not_mem_of_mem_cutAt horiginal
  · unfold blankPragmaLine
    split
    · simp
    · exact not_mem_of_mem_cutAt horiginal

namespace Row.From

variable {index : Index} {files : List TextFile} {row : Row}

/-- A marker names one of the files, or a file that includes are looked up in. -/
theorem names (h : Row.From index files row) {kind : Marker} {name : String}
    (hrow : row.marker? = some (kind, name)) :
    (∃ file ∈ files, file.name = name) ∨ ∃ p ∈ index.files, p.file.name = name := by
  cases h with
  | kept number hfile hline hcopy =>
    cases hcopy with
    | plain | unresolved => cases hrow
    | recursive hinclude | duplicate hinclude =>
      cases hrow
      obtain ⟨p, hp, rfl⟩ := (Index.holds_of_included? hinclude).mem
      exact Or.inr ⟨p, hp, rfl⟩
  | openBlock hfile | closeBlock hfile | lineIs _ hfile | tooDeep _ hfile =>
    cases hrow; exact Or.inl ⟨_, hfile, rfl⟩
  | copied | gap => cases hrow

/-- Any other row is one line. -/
theorem newline_not_mem_render (h : Row.From index files row) (hrow : row.marker? = none) :
    '\n' ∉ row.render := by
  cases h with
  | kept number hfile hline hcopy =>
    cases hcopy with
    | plain | unresolved => exact hline.newline_not_mem
    | recursive | duplicate => cases hrow
  | copied number hfile hline => exact hline.newline_not_mem
  | openBlock | closeBlock | lineIs | tooDeep => cases hrow
  | gap => exact List.not_mem_nil

end Row.From

/-- What the markers among rows are, if `known` holds for the names of files. -/
structure Row.MarkersOf (known : String → Prop) (rows : List Row) : Prop where
  /-- Any other row is one line. -/
  plain : ∀ row ∈ rows, row.marker? = none → splitLines row.render = [row.render]
  names : ∀ row ∈ rows, ∀ kind name, row.marker? = some (kind, name) → known name
  /-- A marker has one line more than its name has newlines. -/
  length : ∀ row ∈ rows, ∀ kind name, row.marker? = some (kind, name) →
    (splitLines row.render).length = name.toList.count '\n' + 1
  confined : ∀ row ∈ rows, ∀ kind name, row.marker? = some (kind, name) →
    (kind.Confines row.render ↔ kind.Admits name.toList)
  /-- A compiler that skips comments comes out of a remark or a frame in the code that follows. -/
  skipped : ∀ row ∈ rows, ∀ kind name, row.marker? = some (kind, name) → kind ≠ .position →
    kind.Admits name.toList → ∀ rest,
      scanComments .code (row.render ++ '\n' :: rest) = none :: some '\n' :: scanComments .code rest

theorem Row.markersOf {index : Index} {files : List TextFile} {rows : List Row}
    (h : ∀ row ∈ rows, Row.From index files row) {known : String → Prop}
    (hfiles : ∀ file ∈ files, known file.name) (hindex : ∀ p ∈ index.files, known p.file.name) :
    Row.MarkersOf known rows where
  plain row hrow hnone := cutAt_of_not_mem ((h row hrow).newline_not_mem_render hnone)
  names row hrow kind name hmarker := by
    rcases (h row hrow).names hmarker with ⟨file, hfile, rfl⟩ | ⟨p, hp, rfl⟩
    · exact hfiles file hfile
    · exact hindex p hp
  length _ _ _ _ hmarker := Row.length_splitLines_render hmarker
  confined _ _ _ _ hmarker := Row.confines_render_iff hmarker
  skipped _ _ _ _ hmarker := Row.scanComments_render hmarker

theorem markersOf_expand (index : Index) (ctx : Context) (origin code : String) :
    Row.MarkersOf (fun name => name = origin ∨ ∃ p ∈ index.files, p.file.name = name)
      (expand index ctx origin code).rows := by
  have hheld : ∀ header, index.Holds header →
      header ∈ ⟨origin, code⟩ :: index.files.map (·.file) := by
    intro header hheader
    obtain ⟨p, hp, rfl⟩ := hheader.mem
    exact List.mem_cons_of_mem _ (List.mem_map_of_mem hp)
  refine Row.markersOf (from_expand hheld List.mem_cons_self ctx) ?_ fun p hp => Or.inr ⟨p, hp, rfl⟩
  refine List.forall_mem_cons.mpr ⟨Or.inl rfl, fun file hfile => ?_⟩
  obtain ⟨p, hp, rfl⟩ := List.mem_map.mp hfile
  exact Or.inr ⟨p, hp, rfl⟩

theorem markersOf_bundle (tag : String) (files : List TextFile) (limit : Int) :
    Row.MarkersOf (fun name => ∃ file ∈ files, file.name = name)
      (Bundle.ofFiles tag files limit).rows :=
  Row.markersOf (Bundle.rows_from tag files limit) (fun file hfile => ⟨file, hfile, rfl⟩)
    fun p hp => ⟨p.file, exists_mem_place.mp ⟨p, hp, rfl⟩, rfl⟩

theorem Bundle.splitLines_content_eq_flatMap {tag : String} {files : List TextFile}
    (h : sourcesOf tag files ≠ []) (limit : Int) :
    splitLines (Bundle.ofFiles tag files limit).content.toList =
      (Bundle.ofFiles tag files limit).rows.flatMap fun row => splitLines row.render := by
  cases hb : Bundle.ofFiles tag files limit with
  | verbatim given => exact absurd (Bundle.sourcesOf_eq_nil_of_verbatim hb) h
  | unit sources chunks =>
    rw [Bundle.toList_content_unit]
    exact Row.splitLines_text_eq_flatMap (Bundle.chunkRows_ne_nil chunks)

/-- **Every marker of an expansion, and of a bundle, is confined exactly if the name in it is one
that its kind admits.**  The lines of the text are those of its rows.  A name in a marker is that of
the file that is expanded or of one that includes are looked up in, and in a bundle that of one of
its files. -/
theorem markers_confined_iff (index : Index) (ctx : Context) (origin code tag : String)
    (files : List TextFile) (limit : Int) :
    (splitLines (Row.text (expand index ctx origin code).rows) =
        (expand index ctx origin code).rows.flatMap (fun row => splitLines row.render) ∧
      Row.MarkersOf (fun name => name = origin ∨ ∃ p ∈ index.files, p.file.name = name)
        (expand index ctx origin code).rows) ∧
      (sourcesOf tag files ≠ [] →
        splitLines (Bundle.ofFiles tag files limit).content.toList =
          (Bundle.ofFiles tag files limit).rows.flatMap fun row => splitLines row.render) ∧
      Row.MarkersOf (fun name => ∃ file ∈ files, file.name = name)
        (Bundle.ofFiles tag files limit).rows := by
  refine ⟨⟨?_, markersOf_expand index ctx origin code⟩, ?_, markersOf_bundle tag files limit⟩
  · exact Row.splitLines_text_eq_flatMap (expand_whole ctx origin code).1
  · exact fun h => Bundle.splitLines_content_eq_flatMap h limit

/-- A name that opens a comment, and one with a newline that is found by its basename. -/
def oddNames : List TextFile :=
  [⟨"main.c", "#include \"/*a.h\"\n#include \"b.h\"\n#include \"/*a.h\""⟩, ⟨"/*a.h", ""⟩,
    ⟨"u\n/b.h", ""⟩]

theorem markers_confined_iff_oddNames :
    sourcesOf "c" oddNames ≠ [] ∧
      Row.source "main.c" 3 (.duplicate "/*a.h") ∈ (Bundle.ofFiles "c" oddNames 32).rows ∧
      Row.openBlock "u\n/b.h" ∈ (Bundle.ofFiles "c" oddNames 32).rows ∧
      OneComment (Row.source "main.c" 3 (.duplicate "/*a.h")).render ∧
      (splitLines (Row.openBlock "u\n/b.h").render).length = 2 ∧
      ¬ Marker.frame.Confines (Row.openBlock "u\n/b.h").render ∧
      splitLines (Bundle.ofFiles "c" oddNames 32).content.toList =
        (Bundle.ofFiles "c" oddNames 32).rows.flatMap fun row => splitLines row.render := by
  obtain ⟨-, hlines, hmarkers⟩ :=
    markers_confined_iff (Index.ofFiles oddNames) (Context.fresh 32) "main.c" "" "c" oddNames 32
  have hsources : sourcesOf "c" oddNames ≠ [] := by decide +kernel
  have hremark : Row.source "main.c" 3 (.duplicate "/*a.h") ∈
      (Bundle.ofFiles "c" oddNames 32).rows := by
    decide +kernel
  have hframe : Row.openBlock "u\n/b.h" ∈ (Bundle.ofFiles "c" oddNames 32).rows := by decide +kernel
  have hcomment := hmarkers.confined _ hremark .remark "/*a.h" rfl
  have hlength := hmarkers.length _ hframe .frame "u\n/b.h" rfl
  have hconfined := hmarkers.confined _ hframe .frame "u\n/b.h" rfl
  refine ⟨hsources, hremark, hframe, hcomment.mpr ⟨by decide, by decide⟩, hlength.trans (by decide),
    fun h => ?_, hlines hsources⟩
  exact hconfined.mp h (by decide)

/-- A header with a name that closes a comment, included twice. -/
def closingName : List TextFile :=
  [⟨"main.c", "#include \"x*/b.h\"\n#include \"x*/b.h\"\n"⟩, ⟨"x*/b.h", "int b;\n"⟩]

/-- **Not every marker is confined.** -/
theorem marker_comments_confined_fails :
    ¬ ∀ files limit, ∀ row ∈ (Bundle.ofFiles "c" files limit).rows, ∀ kind name,
      row.marker? = some (kind, name) → kind.Confines row.render := by
  intro h
  have hrow : Row.source "main.c" 2 (.duplicate "x*/b.h") ∈
      (Bundle.ofFiles "c" closingName 32).rows := by
    decide +kernel
  have hcomment := h closingName 32 _ hrow .remark "x*/b.h" rfl
  have hadmits := (Row.oneComment_render_iff rfl).mp hcomment
  exact hadmits.2 (by decide)

end Amalgam
