import Amalgam.Unit.Directive

/-!
# Laws of the directives

* `splitLines_blankPragmaOnce` — emptying the `#pragma once` lines of a text is done line by line:
  the lines keep their number and their order.
* `quotedInclude?_blankPragmaLine` — no include is emptied.
* `readPosition?_positionDirective` — a line directive is read back as the file and the number that
  it was made of, whatever the name of the file.
-/

set_option autoImplicit false

namespace Amalgam

/-! ## The first line of a text -/

theorem exists_splitLines (cs : List Char) : ∃ l ls, splitLines cs = l :: ls :=
  List.exists_cons_of_ne_nil (cutAt_ne_nil cs)

theorem splitLines_newline (cs : List Char) : splitLines ('\n' :: cs) = [] :: splitLines cs := by
  simp [cutAt]

theorem splitLines_cons {c : Char} (hc : c ≠ '\n') {cs : List Char} {l : Line} {ls : List Line}
    (h : splitLines cs = l :: ls) : splitLines (c :: cs) = (c :: l) :: ls := by
  have h' : cutAt '\n' cs = l :: ls := h
  simp [cutAt, hc, h']

/-- A text is its first line, or that line, a newline and the other lines. -/
theorem eq_joinLines_of_splitLines {cs : List Char} {ls : List Line} (h : splitLines cs = ls) :
    cs = joinLines ls := by
  subst h
  exact (joinAt_cutAt cs).symm

/-! ## A directive ends with its line -/

section EndOfLine

variable {p : Char → Bool}

theorem dropWhile_append_newline (hp : p '\n' = false) (l cs : List Char) :
    (l ++ '\n' :: cs).dropWhile p = l.dropWhile p ++ '\n' :: cs := by
  induction l with
  | nil => simp [hp]
  | cons c l ih =>
    simp only [List.cons_append, List.dropWhile_cons]
    split
    · exact ih
    · rfl

theorem takeWhile_append_newline (hp : p '\n' = false) (l cs : List Char) :
    (l ++ '\n' :: cs).takeWhile p = l.takeWhile p := by
  induction l with
  | nil => simp [hp]
  | cons c l ih =>
    simp only [List.cons_append, List.takeWhile_cons]
    split
    · rw [ih]
    · rfl

theorem dropWord?_append_newline {fold : Char → Char} {word : List Char} (hw : fold '\n' ∉ word)
    (l cs : List Char) :
    dropWord? fold word (l ++ '\n' :: cs) = (dropWord? fold word l).map (· ++ '\n' :: cs) := by
  induction word generalizing l with
  | nil => rfl
  | cons w ws ih =>
    simp only [List.mem_cons, not_or] at hw
    cases l with
    | nil => simp [dropWord?, hw.1]
    | cons c l =>
      simp only [List.cons_append, dropWord?]
      split
      · exact ih hw.2 l
      · rfl

theorem dropDirective?_append_newline {fold : Char → Char} {name : List Char}
    (hn : fold '\n' ∉ name) (l cs : List Char) :
    dropDirective? fold name (l ++ '\n' :: cs) =
      (dropDirective? fold name l).map (· ++ '\n' :: cs) := by
  unfold dropDirective?
  rw [dropWhile_append_newline (by decide)]
  cases hl : l.dropWhile isInlineBlank with
  | nil => rfl
  | cons c rest =>
    by_cases hc : c = '#'
    · subst hc
      simp only [List.cons_append]
      rw [dropWhile_append_newline (by decide), dropWord?_append_newline hn]
    · simp [hc]

theorem endsWord_append_newline (l cs : List Char) : endsWord (l ++ '\n' :: cs) = endsWord l := by
  cases l with
  | nil => show (!isWordChar '\n') = true; decide
  | cons c l => rfl

theorem startsPragmaOnce_append_newline (l cs : List Char) :
    startsPragmaOnce (l ++ '\n' :: cs) = startsPragmaOnce l := by
  unfold startsPragmaOnce
  rw [dropDirective?_append_newline (by decide)]
  cases dropDirective? Char.toLower ['p', 'r', 'a', 'g', 'm', 'a'] l with
  | none => rfl
  | some rest =>
    simp only [Option.map_some]
    rw [takeWhile_append_newline (by decide), dropWhile_append_newline (by decide),
      dropWord?_append_newline (by decide)]
    cases dropWord? Char.toLower ['o', 'n', 'c', 'e'] (rest.dropWhile isInlineBlank) with
    | none => rfl
    | some rest => simp only [Option.map_some, endsWord_append_newline]

/-- Only the first line decides whether a text starts with `#pragma once`. -/
theorem startsPragmaOnce_eq_of_splitLines {cs : List Char} {l : Line} {ls : List Line}
    (h : splitLines cs = l :: ls) : startsPragmaOnce cs = startsPragmaOnce l := by
  cases ls with
  | nil => rw [eq_joinLines_of_splitLines h]; rfl
  | cons l' ls =>
    rw [eq_joinLines_of_splitLines h]
    exact startsPragmaOnce_append_newline l (joinLines (l' :: ls))

end EndOfLine

/-! ## Emptying `#pragma once` lines -/

/-- A line, emptied if it is `#pragma once`. -/
def blankPragmaLine (line : Line) : Line := if startsPragmaOnce line then [] else line

/-- The lines of a text of which the first is dropped up to its end if `dropping` says so. -/
theorem splitLines_blankPragmaLines (dropping : Bool) (cs : List Char) {l : Line} {ls : List Line}
    (h : splitLines cs = l :: ls) :
    splitLines (blankPragmaLines dropping cs) =
      (if dropping then [] else l) :: ls.map blankPragmaLine := by
  induction cs generalizing dropping l ls with
  | nil =>
    obtain ⟨rfl, rfl⟩ : [] = l ∧ [] = ls := by simpa [cutAt] using h
    simp [blankPragmaLines, cutAt]
  | cons c cs ih =>
    obtain ⟨l', ls', hcs⟩ := exists_splitLines cs
    by_cases hc : c = '\n'
    · subst hc
      rw [splitLines_newline, hcs] at h
      obtain ⟨rfl, rfl⟩ := List.cons.inj h
      -- a new line starts: whether it is dropped is decided by what follows the newline
      simp only [blankPragmaLines, if_true]
      rw [splitLines_newline, ih _ hcs, startsPragmaOnce_eq_of_splitLines hcs]
      simp [blankPragmaLine]
    · rw [splitLines_cons hc hcs] at h
      obtain ⟨rfl, rfl⟩ := List.cons.inj h
      cases dropping with
      | true =>
        simp only [blankPragmaLines, if_neg hc, if_true]
        exact ih true hcs
      | false =>
        simp only [blankPragmaLines, if_neg hc, Bool.false_eq_true, if_false]
        exact splitLines_cons hc (ih false hcs)

/-- **Blanking is done line by line.** -/
theorem splitLines_blankPragmaOnce (cs : List Char) :
    splitLines (blankPragmaOnce cs) = (splitLines cs).map blankPragmaLine := by
  obtain ⟨l, ls, h⟩ := exists_splitLines cs
  unfold blankPragmaOnce
  rw [splitLines_blankPragmaLines _ cs h, h, startsPragmaOnce_eq_of_splitLines h]
  rfl

/-- A `#pragma once` line is no include. -/
theorem quotedInclude?_of_startsPragmaOnce {line : Line} (h : startsPragmaOnce line = true) :
    quotedInclude? line = none := by
  unfold startsPragmaOnce at h
  unfold quotedInclude?
  unfold dropDirective? at h ⊢
  cases hl : line.dropWhile isInlineBlank with
  | nil => rfl
  | cons c rest =>
    by_cases hc : c = '#'
    · subst hc
      simp only [hl] at h ⊢
      cases hr : rest.dropWhile isInlineBlank with
      | nil => rfl
      | cons d ds =>
        by_cases hd : d = 'i'
        · subst hd
          simp [hr, dropWord?] at h
        · simp [dropWord?, hd]
    · simp [hc]

/-- Blanking neither makes nor hides an include. -/
theorem quotedInclude?_blankPragmaLine (line : Line) :
    quotedInclude? (blankPragmaLine line) = quotedInclude? line := by
  unfold blankPragmaLine
  split
  · rename_i h
    rw [quotedInclude?_of_startsPragmaOnce h]
    rfl
  · rfl

/-! ## Reading a line directive -/

/-- A place in a file. -/
structure Position where
  file : String
  line : Nat
  deriving DecidableEq, Repr

/-- The characters of a string literal, of which the opening quote has been read.  The closing quote
is the last character. -/
def readLiteral? : List Char → Option (List Char)
  | [] => none
  | '"' :: cs => if cs.isEmpty then some [] else none
  | '\\' :: c :: cs => if c = '\\' ∨ c = '"' then (readLiteral? cs).map (c :: ·) else none
  | c :: cs => (readLiteral? cs).map (c :: ·)

/-- The place that a line directive names. -/
def readPosition? (line : Line) : Option Position :=
  match dropWord? id ['#', 'l', 'i', 'n', 'e', ' '] line with
  | none => none
  | some rest =>
    match rest.takeWhile Char.isDigit, rest.dropWhile Char.isDigit with
    | d :: ds, ' ' :: '"' :: cs =>
      (readLiteral? cs).map fun name => ⟨String.ofList name, Nat.ofDigitChars 10 (d :: ds) 0⟩
    | _, _ => none

theorem readLiteral?_escapeLiteral (cs : List Char) :
    readLiteral? (escapeLiteral cs ++ ['"']) = some cs := by
  induction cs with
  | nil => rfl
  | cons c cs ih =>
    unfold escapeLiteral
    by_cases h₁ : c = '\\'
    · subst h₁
      simp [readLiteral?, ih]
    · by_cases h₂ : c = '"'
      · subst h₂
        simp [readLiteral?, ih]
      · simp [readLiteral?, h₁, h₂, ih]

theorem positionDirective_toList (number : Nat) (name : String) :
    (positionDirective number name).toList =
      ['#', 'l', 'i', 'n', 'e', ' '] ++ (Nat.toDigits 10 number ++
        ' ' :: '"' :: (escapeLiteral name.toList ++ ['"'])) := by
  unfold positionDirective positionDirectiveText
  simp

/-- The word, a number and the start of a literal are read off a line. -/
theorem readPosition?_digits {digits : List Char} (hne : digits ≠ [])
    (hdigits : ∀ d ∈ digits, d.isDigit = true) (cs : List Char) :
    readPosition? (['#', 'l', 'i', 'n', 'e', ' '] ++ (digits ++ ' ' :: '"' :: cs)) =
      (readLiteral? cs).map fun name => ⟨String.ofList name, Nat.ofDigitChars 10 digits 0⟩ := by
  unfold readPosition?
  rw [dropWord?_append]
  simp only
  rw [List.takeWhile_append_of_pos hdigits, List.dropWhile_append_of_pos hdigits]
  obtain ⟨d, ds, rfl⟩ := List.exists_cons_of_ne_nil hne
  simp

/-- **A line directive is read back.** -/
theorem readPosition?_positionDirective (number : Nat) (name : String) :
    readPosition? (positionDirective number name).toList = some ⟨name, number⟩ := by
  have hdigits : ∀ c ∈ Nat.toDigits 10 number, c.isDigit = true := fun c hc =>
    Nat.isDigit_of_mem_toDigits (by decide) (by decide) hc
  rw [positionDirective_toList, readPosition?_digits Nat.toDigits_ne_nil hdigits,
    readLiteral?_escapeLiteral]
  simp

/-- Only a line that starts with the word is a line directive. -/
theorem readPosition?_eq_none {line : Line} (h : ¬ ['#', 'l', 'i', 'n', 'e', ' '] <+: line) :
    readPosition? line = none := by
  unfold readPosition?
  cases hd : dropWord? id ['#', 'l', 'i', 'n', 'e', ' '] line with
  | none => rfl
  | some rest => exact absurd ⟨rest, (eq_append_of_dropWord? hd).symm⟩ h

end Amalgam
