import Amalgam.Proofs.Directive
import Amalgam.Proofs.NamePattern

/-!
# `#pragma once` is blanked line by line

A text is scanned once from its start to its end, and what is dropped is decided at each newline.
Here the same is said of lines: the lines of the form of `#pragma once` become empty, and all others
stay what and where they are.

* `IsPragmaOnce`, `IsQuotedInclude` — the forms of the two directives, as parts that a line is put
  together of.
* `startsPragmaOnce_iff`, `quotedInclude?_eq_some_iff` — the functions that read lines recognise
  these forms.
* `MatchesDropped` — a text is searched from left to right and the matches are dropped;
  `matchesDropped_iff` — that is what the scan does.
* `pragmas_blanked_by_line` — blanking is the line map; includes stay in their places, and no
  `#pragma once` is left.
-/

set_option autoImplicit false

namespace Amalgam

/-! ## Forms of directives -/

/-- Spaces and tabs, or nothing. -/
def Blanks (cs : List Char) : Prop := ∀ c ∈ cs, c = ' ' ∨ c = '\t'

/-- A hash with blanks around it, a word in any case, blanks, and another word that ends where the
line does or before a character that is not of a word. -/
def IsPragmaOnce (line : Line) : Prop :=
  ∃ indent gap first between second rest,
    line = indent ++ '#' :: (gap ++ (first ++ (between ++ (second ++ rest)))) ∧
      Blanks indent ∧ Blanks gap ∧ Spells ['p', 'r', 'a', 'g', 'm', 'a'] first ∧
      Blanks between ∧ between ≠ [] ∧ Spells ['o', 'n', 'c', 'e'] second ∧
      (rest = [] ∨ ∃ c cs, rest = c :: cs ∧ isWordChar c = false)

/-- A hash with blanks around it, the word, blanks, a name in quotes, and anything. -/
def IsQuotedInclude (name : String) (line : Line) : Prop :=
  ∃ indent gap blanks rest,
    line = indent ++ '#' :: (gap ++ (['i', 'n', 'c', 'l', 'u', 'd', 'e'] ++
      (blanks ++ '"' :: (name.toList ++ '"' :: rest)))) ∧
      Blanks indent ∧ Blanks gap ∧ Blanks blanks ∧ name ≠ "" ∧ '"' ∉ name.toList

/-! ## Blanks and words at the start of a text -/

theorem isInlineBlank_iff {c : Char} : isInlineBlank c = true ↔ c = ' ' ∨ c = '\t' := by
  simp [isInlineBlank]

/-- A letter of a word that no blank folds to is no blank. -/
theorem isInlineBlank_of_fold_eq {fold : Char → Char} {w c : Char} (hspace : fold ' ' ≠ w)
    (htab : fold '\t' ≠ w) (hc : fold c = w) : isInlineBlank c = false := by
  refine Bool.eq_false_iff.mpr fun hblank => ?_
  rcases isInlineBlank_iff.mp hblank with rfl | rfl
  · exact hspace hc
  · exact htab hc

theorem blanks_takeWhile (cs : List Char) : Blanks (cs.takeWhile isInlineBlank) :=
  fun c hc => isInlineBlank_iff.mp (List.all_eq_true.mp List.all_takeWhile c hc)

section BlanksBefore

variable {blanks : List Char} (hblanks : Blanks blanks) {c : Char} (hc : isInlineBlank c = false)
  (rest : List Char)
include hblanks hc

theorem dropWhile_blanks_append : (blanks ++ c :: rest).dropWhile isInlineBlank = c :: rest := by
  rw [List.dropWhile_append_of_pos fun b hb => isInlineBlank_iff.mpr (hblanks b hb)]
  simp [hc]

theorem takeWhile_blanks_append : (blanks ++ c :: rest).takeWhile isInlineBlank = blanks := by
  rw [List.takeWhile_append_of_pos fun b hb => isInlineBlank_iff.mpr (hblanks b hb)]
  simp [hc]

end BlanksBefore

/-- What is dropped is what folds to the word. -/
theorem dropWord?_eq_some_iff {fold : Char → Char} {word cs rest : List Char} :
    dropWord? fold word cs = some rest ↔
      ∃ spelled, cs = spelled ++ rest ∧ spelled.map fold = word := by
  induction word generalizing cs with
  | nil => simp [dropWord?]
  | cons w ws ih =>
    cases cs with
    | nil => simp [dropWord?]
    | cons c cs =>
      simp only [dropWord?]
      constructor
      · intro h
        split at h
        · rename_i hc
          obtain ⟨spelled, rfl, rfl⟩ := ih.mp h
          exact ⟨c :: spelled, rfl, by rw [List.map_cons, hc]⟩
        · cases h
      · rintro ⟨spelled, hcs, hspelled⟩
        obtain ⟨d, ds, rfl, hd, hds⟩ := List.map_eq_cons_iff.mp hspelled
        obtain ⟨rfl, rfl⟩ := List.cons.inj hcs
        rw [if_pos hd]
        exact ih.mpr ⟨ds, rfl, hds⟩

theorem endsWord_iff {cs : List Char} :
    endsWord cs = true ↔ cs = [] ∨ ∃ c rest, cs = c :: rest ∧ isWordChar c = false := by
  cases cs <;> simp [endsWord]

/-- A directive is a hash with blanks around it and its name.  The name does not start with a blank,
so the blanks before it end where it starts. -/
theorem dropDirective?_eq_some_iff {fold : Char → Char} {w : Char} {ws cs rest : List Char}
    (hspace : fold ' ' ≠ w) (htab : fold '\t' ≠ w) :
    dropDirective? fold (w :: ws) cs = some rest ↔
      ∃ indent gap spelled, cs = indent ++ '#' :: (gap ++ (spelled ++ rest)) ∧ Blanks indent ∧
        Blanks gap ∧
        spelled.map fold = w :: ws := by
  unfold dropDirective?
  constructor
  · intro h
    split at h
    · rename_i behind hbehind
      obtain ⟨spelled, hsplit, hspelled⟩ := dropWord?_eq_some_iff.mp h
      refine ⟨cs.takeWhile isInlineBlank, behind.takeWhile isInlineBlank, spelled, ?_,
        blanks_takeWhile cs, blanks_takeWhile behind, hspelled⟩
      rw [← hsplit, List.takeWhile_append_dropWhile, ← hbehind, List.takeWhile_append_dropWhile]
    · cases h
  · rintro ⟨indent, gap, spelled, rfl, hindent, hgap, hspelled⟩
    obtain ⟨c, spelled, rfl, hc, -⟩ := List.map_eq_cons_iff.mp hspelled
    have hblank := isInlineBlank_of_fold_eq hspace htab hc
    rw [dropWhile_blanks_append hindent (by decide)]
    simp only [List.cons_append, dropWhile_blanks_append hgap hblank]
    exact dropWord?_eq_some_iff.mpr ⟨c :: spelled, rfl, hspelled⟩

/-! ## The forms are recognised -/

theorem startsPragmaOnce_eq_true_iff {cs : List Char} :
    startsPragmaOnce cs = true ↔
      ∃ behind rest, dropDirective? Char.toLower ['p', 'r', 'a', 'g', 'm', 'a'] cs = some behind ∧
        behind.takeWhile isInlineBlank ≠ [] ∧
        dropWord? Char.toLower ['o', 'n', 'c', 'e'] (behind.dropWhile isInlineBlank) = some rest ∧
        endsWord rest = true := by
  unfold startsPragmaOnce
  cases dropDirective? Char.toLower ['p', 'r', 'a', 'g', 'm', 'a'] cs with
  | none => simp
  | some behind =>
    cases hword : dropWord? Char.toLower ['o', 'n', 'c', 'e'] (behind.dropWhile isInlineBlank) with
    | none => simp [hword]
    | some rest => simp [hword]

/-- **The lines that start with `#pragma once` are those of its form.** -/
theorem startsPragmaOnce_iff {line : Line} : startsPragmaOnce line = true ↔ IsPragmaOnce line := by
  have hpragma : ∀ {cs : List Char}, Spells ['p', 'r', 'a', 'g', 'm', 'a'] cs ↔
      cs.map Char.toLower = ['p', 'r', 'a', 'g', 'm', 'a'] := spells_iff (by decide)
  have honce : ∀ {cs : List Char}, Spells ['o', 'n', 'c', 'e'] cs ↔
      cs.map Char.toLower = ['o', 'n', 'c', 'e'] :=
    spells_iff (by decide)
  rw [startsPragmaOnce_eq_true_iff]
  constructor
  · rintro ⟨behind, rest, hdirective, hbetween, hword, hends⟩
    obtain ⟨indent, gap, first, rfl, hindent, hgap, hfirst⟩ :=
      (dropDirective?_eq_some_iff (by decide) (by decide)).mp hdirective
    obtain ⟨second, hsecond, hspelled⟩ := dropWord?_eq_some_iff.mp hword
    refine ⟨indent, gap, first, behind.takeWhile isInlineBlank, second, rest, ?_, hindent, hgap,
      hpragma.mpr hfirst,
      blanks_takeWhile behind, hbetween, honce.mpr hspelled, endsWord_iff.mp hends⟩
    rw [← hsecond, List.takeWhile_append_dropWhile]
  · rintro ⟨indent, gap, first, between, second, rest, rfl, hindent, hgap, hfirst, hblanks,
      hbetween, hsecond, hends⟩
    -- the second word does not start with a blank, so the blanks before it are taken whole
    have hspelled := honce.mp hsecond
    obtain ⟨c, cs, rfl, hc, -⟩ := List.map_eq_cons_iff.mp hspelled
    have hblank : isInlineBlank c = false := isInlineBlank_of_fold_eq (by decide) (by decide) hc
    refine ⟨between ++ ((c :: cs) ++ rest), rest, ?_, ?_, ?_, endsWord_iff.mpr hends⟩
    · exact (dropDirective?_eq_some_iff (by decide) (by decide)).mpr
        ⟨indent, gap, first, rfl, hindent, hgap, hpragma.mp hfirst⟩
    · rw [List.cons_append, takeWhile_blanks_append hblanks hblank]
      exact hbetween
    · rw [List.cons_append, dropWhile_blanks_append hblanks hblank]
      exact dropWord?_eq_some_iff.mpr ⟨c :: cs, rfl, hspelled⟩

instance : DecidablePred IsPragmaOnce := fun _ => decidable_of_iff _ startsPragmaOnce_iff

/-- A text is cut at its first quote. -/
theorem cut_at_quote_iff {cs name rest : List Char} :
    (cs.takeWhile (· != '"') = name ∧ cs.dropWhile (· != '"') = '"' :: rest) ↔
      cs = name ++ '"' :: rest ∧ '"' ∉ name := by
  constructor
  · rintro ⟨rfl, hrest⟩
    refine ⟨by rw [← hrest, List.takeWhile_append_dropWhile], fun hmem => ?_⟩
    have hne := List.all_eq_true.mp List.all_takeWhile '"' hmem
    simp at hne
  · rintro ⟨rfl, hquote⟩
    have hname : ∀ c ∈ name, (c != '"') = true :=
      fun c hc => bne_iff_ne.mpr (ne_of_mem_of_not_mem hc hquote)
    rw [List.takeWhile_append_of_pos hname, List.dropWhile_append_of_pos hname]
    simp

theorem exists_dropWhile_quote {cs : List Char} (h : cs.dropWhile (· != '"') ≠ []) :
    ∃ rest, cs.dropWhile (· != '"') = '"' :: rest := by
  obtain ⟨c, rest, hdrop⟩ := List.exists_cons_of_ne_nil h
  have hhead := List.head?_dropWhile_not (· != '"') cs
  rw [hdrop] at hhead
  obtain rfl : c = '"' := by simpa using hhead
  exact ⟨rest, hdrop⟩

theorem quotedInclude?_eq_some_iff_cut {line : Line} {name : String} :
    quotedInclude? line = some name ↔
      ∃ behind quoted, dropDirective? id ['i', 'n', 'c', 'l', 'u', 'd', 'e'] line = some behind ∧
        behind.dropWhile isInlineBlank = '"' :: quoted ∧ quoted.takeWhile (· != '"') = name.toList ∧
        name.toList ≠ [] ∧ quoted.dropWhile (· != '"') ≠ [] := by
  unfold quotedInclude?
  constructor
  · intro h
    split at h
    · cases h
    · rename_i behind hdirective
      split at h
      · rename_i quoted hquoted
        dsimp only at h
        split at h
        · cases h
        · cases h
        · rename_i htake hdrop
          obtain rfl := Option.some.inj h
          refine ⟨behind, quoted, hdirective, hquoted, by simp, ?_, ?_⟩
          · simpa using htake
          · exact hdrop
      · cases h
  · rintro ⟨behind, quoted, hdirective, hquoted, htake, hne, hdrop⟩
    simp only [hdirective, hquoted, htake, String.ofList_toList]

/-- **The lines that include a name are those of the form of an include.** -/
theorem quotedInclude?_eq_some_iff {line : Line} {name : String} :
    quotedInclude? line = some name ↔ IsQuotedInclude name line := by
  rw [quotedInclude?_eq_some_iff_cut]
  constructor
  · rintro ⟨behind, quoted, hdirective, hquoted, hname, hne, hdrop⟩
    obtain ⟨indent, gap, spelled, rfl, hindent, hgap, hspelled⟩ :=
      (dropDirective?_eq_some_iff (by decide) (by decide)).mp hdirective
    obtain ⟨rest, hrest⟩ := exists_dropWhile_quote hdrop
    obtain ⟨rfl, hquote⟩ := cut_at_quote_iff.mp ⟨hname, hrest⟩
    refine ⟨indent, gap, behind.takeWhile isInlineBlank, rest, ?_, hindent, hgap,
      blanks_takeWhile behind, by simpa using hne, hquote⟩
    rw [← hquoted, List.takeWhile_append_dropWhile, ← hspelled, List.map_id]
  · rintro ⟨indent, gap, blanks, rest, rfl, hindent, hgap, hblanks, hname, hquote⟩
    obtain ⟨htake, hdrop⟩ := cut_at_quote_iff.mpr ⟨rfl, hquote⟩
    refine ⟨blanks ++ '"' :: (name.toList ++ '"' :: rest), name.toList ++ '"' :: rest, ?_, ?_,
      htake, by simpa using hname, by simp [hdrop]⟩
    · exact (dropDirective?_eq_some_iff (by decide) (by decide)).mpr ⟨indent, gap, _, rfl, hindent,
        hgap, rfl⟩
    · exact dropWhile_blanks_append hblanks (by decide) _

/-! ## Matches are dropped from left to right -/

/-- A match at the start of a line, and what follows it: it goes to the end of the line. -/
structure PragmaMatch (matched rest : List Char) : Prop where
  form : IsPragmaOnce matched
  no_newline : '\n' ∉ matched
  ends : rest = [] ∨ ∃ later, rest = '\n' :: later

/-- A text is searched from its start, where `start` tells whether a line starts there: a match is
dropped, and where there is none one character is kept. -/
inductive MatchesDropped : (start : Bool) → List Char → List Char → Prop where
  | done (start : Bool) : MatchesDropped start [] []
  | dropped {matched rest out : List Char} (h : PragmaMatch matched rest)
      (later : MatchesDropped false rest out) :
      MatchesDropped true (matched ++ rest) out
  | kept {start : Bool} {c : Char} {cs out : List Char}
      (h : start = true → ∀ matched rest, c :: cs = matched ++ rest → ¬ PragmaMatch matched rest)
      (later : MatchesDropped (c == '\n') cs out) : MatchesDropped start (c :: cs) (c :: out)

theorem PragmaMatch.startsPragmaOnce {matched rest : List Char} (h : PragmaMatch matched rest) :
    startsPragmaOnce (matched ++ rest) = true := by
  have hmatched := startsPragmaOnce_iff.mpr h.form
  rcases h.ends with rfl | ⟨later, rfl⟩
  · rwa [List.append_nil]
  · rwa [startsPragmaOnce_append_newline]

/-- A match is not empty, so what is left to search is shorter. -/
theorem PragmaMatch.ne_nil {matched rest : List Char} (h : PragmaMatch matched rest) :
    matched ≠ [] := by
  rintro rfl
  exact absurd h.form (by decide)

/-- A text that starts with the directive has a match there, its first line. -/
theorem exists_pragmaMatch {cs : List Char} (h : startsPragmaOnce cs = true) :
    ∃ matched rest, cs = matched ++ rest ∧ PragmaMatch matched rest := by
  obtain ⟨line, lines, hlines⟩ := exists_splitLines cs
  have hform : IsPragmaOnce line := by
    rwa [startsPragmaOnce_eq_of_splitLines hlines, startsPragmaOnce_iff] at h
  have hnewline : '\n' ∉ line := not_mem_of_mem_cutAt (hlines ▸ List.mem_cons_self)
  have hjoin := eq_joinLines_of_splitLines hlines
  cases lines with
  | nil => exact ⟨line, [], by simpa [joinAt] using hjoin, hform, hnewline, Or.inl rfl⟩
  | cons next lines =>
    exact ⟨line, '\n' :: joinLines (next :: lines), hjoin, hform, hnewline, Or.inr ⟨_, rfl⟩⟩

theorem blankPragmaLines_match {matched rest : List Char} (h : PragmaMatch matched rest) :
    blankPragmaLines true (matched ++ rest) = blankPragmaLines false rest := by
  have hdropped : ∀ cs : List Char, '\n' ∉ cs →
      blankPragmaLines true (cs ++ rest) = blankPragmaLines true rest := by
    intro cs hcs
    induction cs with
    | nil => rfl
    | cons c cs ih =>
      obtain ⟨hc, hcs⟩ := not_or.mp (List.mem_cons.not.mp hcs)
      rw [List.cons_append, blankPragmaLines, if_neg (Ne.symm hc), if_pos rfl]
      exact ih hcs
  rw [hdropped matched h.no_newline]
  -- dropping ends with the line
  rcases h.ends with rfl | ⟨later, rfl⟩
  · rfl
  · simp [blankPragmaLines]

/-- A search can only come to what the scan gives. -/
theorem MatchesDropped.eq_blankPragmaLines {start : Bool} {code out : List Char}
    (h : MatchesDropped start code out) :
    out = blankPragmaLines (start && startsPragmaOnce code) code := by
  induction h with
  | done start => cases start <;> rfl
  | dropped hmatch _ ih =>
    rw [ih, hmatch.startsPragmaOnce]
    exact (blankPragmaLines_match hmatch).symm
  | @kept start c cs out hnone _ ih =>
    have hflag : (start && startsPragmaOnce (c :: cs)) = false := by
      refine Bool.eq_false_iff.mpr fun hboth => ?_
      obtain ⟨hstart, hpragma⟩ := Bool.and_eq_true_iff.mp hboth
      obtain ⟨matched, rest, hsplit, hmatch⟩ := exists_pragmaMatch hpragma
      exact hnone hstart matched rest hsplit hmatch
    rw [hflag, ih, blankPragmaLines]
    by_cases hc : c = '\n'
    · simp [hc]
    · simp [hc, beq_eq_false_iff_ne.mpr hc]

theorem exists_matchesDropped (start : Bool) (code : List Char) :
    ∃ out, MatchesDropped start code out := by
  by_cases hmatch : start = true ∧ ∃ matched rest, code = matched ++ rest ∧ PragmaMatch matched rest
  · obtain ⟨hstart, matched, rest, hsplit, hmatch⟩ := hmatch
    have hshorter : rest.length < code.length := by
      have hpositive := List.length_pos_iff.mpr hmatch.ne_nil
      rw [hsplit, List.length_append]
      omega
    obtain ⟨out, hout⟩ := exists_matchesDropped false rest
    rw [hstart, hsplit]
    exact ⟨out, .dropped hmatch hout⟩
  · cases code with
    | nil => exact ⟨[], .done start⟩
    | cons c cs =>
      obtain ⟨out, hout⟩ := exists_matchesDropped (c == '\n') cs
      refine ⟨c :: out, .kept ?_ hout⟩
      intro hstart matched rest hsplit hpragma
      exact hmatch ⟨hstart, matched, rest, hsplit, hpragma⟩
termination_by code.length
decreasing_by
  · exact hshorter
  · simp

/-- **The scan drops what a search for matches drops.** -/
theorem matchesDropped_iff {code out : List Char} :
    MatchesDropped true code out ↔ out = blankPragmaOnce code := by
  constructor
  · exact fun h => h.eq_blankPragmaLines
  · rintro rfl
    obtain ⟨out, hout⟩ := exists_matchesDropped true code
    obtain rfl : out = blankPragmaOnce code := hout.eq_blankPragmaLines
    exact hout

/-! ## Blanking -/

theorem blankPragmaLine_eq (line : Line) :
    blankPragmaLine line = if IsPragmaOnce line then [] else line := by
  simp only [blankPragmaLine, startsPragmaOnce_iff]

/-- What is left of a line is no `#pragma once`: an empty line is none. -/
theorem not_isPragmaOnce_blankPragmaLine (line : Line) : ¬ IsPragmaOnce (blankPragmaLine line) := by
  rw [blankPragmaLine_eq]
  split
  · exact fun hnil => absurd (startsPragmaOnce_iff.mpr hnil) (by decide)
  · assumption

theorem blankPragmaLine_of_not {line : Line} (h : ¬ IsPragmaOnce line) :
    blankPragmaLine line = line := by
  rw [blankPragmaLine_eq, if_neg h]

theorem not_isPragmaOnce_of_isQuotedInclude {name : String} {line : Line}
    (h : IsQuotedInclude name line) :
    ¬ IsPragmaOnce line := by
  intro hpragma
  have hnone := quotedInclude?_of_startsPragmaOnce (startsPragmaOnce_iff.mpr hpragma)
  rw [quotedInclude?_eq_some_iff.mpr h] at hnone
  cases hnone

/-- The scan of the text is the map of its lines. -/
theorem blankPragmaOnce_eq_joinLines (code : List Char) :
    blankPragmaOnce code = joinLines ((splitLines code).map blankPragmaLine) :=
  eq_joinLines_of_splitLines (splitLines_blankPragmaOnce code)

theorem not_isPragmaOnce_of_mem {code : List Char} {line : Line}
    (h : line ∈ splitLines (blankPragmaOnce code)) :
    ¬ IsPragmaOnce line := by
  rw [splitLines_blankPragmaOnce] at h
  obtain ⟨original, -, rfl⟩ := List.mem_map.mp h
  exact not_isPragmaOnce_blankPragmaLine original

/-- A text without lines of the form stays as it is. -/
theorem blankPragmaOnce_eq_self {code : List Char}
    (h : ∀ line ∈ splitLines code, ¬ IsPragmaOnce line) :
    blankPragmaOnce code = code := by
  have hsame : (splitLines code).map blankPragmaLine = splitLines code := by
    rw [List.map_congr_left fun line hline => blankPragmaLine_of_not (h line hline), List.map_id']
  rw [blankPragmaOnce_eq_joinLines, hsame]
  exact joinAt_cutAt code

/-- **`#pragma once` is blanked line by line.**  What is left when all matches are dropped from the
text is what is left when the lines of the form are emptied and the others stay.  So there are as
many lines as before, an include keeps its text and its number, blanking again changes nothing, and
no line of the form is left. -/
theorem pragmas_blanked_by_line (code : List Char) :
    (∀ out, MatchesDropped true code out ↔ out = blankPragmaOnce code) ∧
      blankPragmaOnce code =
        joinLines ((splitLines code).map fun line => if IsPragmaOnce line then [] else line) ∧
      (splitLines (blankPragmaOnce code)).length = (splitLines code).length ∧
      (∀ (number : Nat) (line : Line) (name : String), (splitLines code)[number]? = some line →
        IsQuotedInclude name line → (splitLines (blankPragmaOnce code))[number]? = some line) ∧
      blankPragmaOnce (blankPragmaOnce code) = blankPragmaOnce code ∧
      ∀ line ∈ splitLines (blankPragmaOnce code), ¬ IsPragmaOnce line := by
  have hlines := splitLines_blankPragmaOnce code
  refine ⟨fun out => matchesDropped_iff, ?_, ?_, ?_, ?_, ?_⟩
  · rw [blankPragmaOnce_eq_joinLines, funext blankPragmaLine_eq]
  · rw [hlines, List.length_map]
  · intro number line name hline hinclude
    rw [hlines, List.getElem?_map, hline, Option.map_some,
      blankPragmaLine_of_not (not_isPragmaOnce_of_isQuotedInclude hinclude)]
  · exact blankPragmaOnce_eq_self fun line hline => not_isPragmaOnce_of_mem hline
  · exact fun line hline => not_isPragmaOnce_of_mem hline

/-- A header whose lines are near to `#pragma once` in several ways; the last line has no
newline. -/
def guardedHeader : List Char :=
  ("#pragma once\n\t# PRAGMA \tOnce;\r\n#pragma oncé\n#include \"a.h\" // #pragma once\n" ++
    "#pragma\u2028once\n #pragma once").toList

theorem pragmas_blanked_by_line_guardedHeader :
    IsQuotedInclude "a.h" "#include \"a.h\" // #pragma once".toList ∧
      (splitLines (blankPragmaOnce guardedHeader))[3]? =
        some "#include \"a.h\" // #pragma once".toList ∧
      blankPragmaOnce guardedHeader =
        "\n\n#pragma oncé\n#include \"a.h\" // #pragma once\n#pragma\u2028once\n".toList ∧
      blankPragmaOnce (blankPragmaOnce guardedHeader) = blankPragmaOnce guardedHeader := by
  have hinclude : IsQuotedInclude "a.h" "#include \"a.h\" // #pragma once".toList :=
    quotedInclude?_eq_some_iff.mp (by decide +kernel)
  obtain ⟨-, hmap, -, hkept, hagain, -⟩ := pragmas_blanked_by_line guardedHeader
  refine ⟨hinclude, hkept 3 _ _ (by decide +kernel) hinclude, ?_, hagain⟩
  rw [hmap]
  decide +kernel

end Amalgam
