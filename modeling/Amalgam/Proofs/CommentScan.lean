import Amalgam.Source.Comment
import Mathlib.Data.List.ReduceOption

/-!
# One scan for comments

A compiler goes through a text once: what opens first is a comment, nothing opens inside of it, and
a space stands for it.  Here comments are taken out in two passes and leave nothing behind.

* `scanComments` — the scan, with a mark for each comment.
* `dropLineComments_dropBlockComments` — the two passes leave the characters that the scan leaves,
  if no block comment of the first pass crosses the start or the end of a line comment.
* `holdsSignature_withSpaces` — a space for each comment does not matter, if no comment stands
  between two word characters.
* `main_found_by_scan_fails` — a comment between words hides a main function from the two passes.
* `definesMain_agrees_with_scan` — if both hold, a text defines a main function exactly if the scan
  finds one.
-/

set_option autoImplicit false

namespace Amalgam

/-! ## The scan -/

/-- Where a scan of a text is. -/
inductive Region where
  | code
  | block
  | line
  deriving DecidableEq

/-- The characters of a text outside of comments, with `none` for each comment; the text starts in
the region.  A line comment ends before the end of the line, and a block comment that is never
closed stays. -/
def scanComments : Region → List Char → List (Option Char)
  | _, [] => []
  | .code, '/' :: '*' :: cs =>
    if closesBlock cs then none :: scanComments .block cs
      else some '/' :: some '*' :: scanComments .code cs
  | .code, '/' :: '/' :: cs => none :: scanComments .line cs
  | .code, c :: cs => some c :: scanComments .code cs
  | .block, '*' :: '/' :: cs => scanComments .code cs
  | .block, _ :: cs => scanComments .block cs
  | .line, '\n' :: cs => some '\n' :: scanComments .code cs
  | .line, _ :: cs => scanComments .line cs

/-- Whether a block comment starts at the beginning of the text. -/
def opensBlock : List Char → Bool
  | '/' :: '*' :: cs => closesBlock cs
  | _ => false

/-- Whether no block comment that the first pass takes out crosses the start or the end of a line
comment; `line` and `block` tell whether the text starts in a line comment and in such a block
comment. -/
def uncrossed : (line block : Bool) → List Char → Bool
  | _, _, [] => true
  | line, true, '*' :: '/' :: cs => uncrossed line false cs
  | true, block, '\n' :: cs => !block && uncrossed false false cs
  | line, true, _ :: cs => uncrossed line true cs
  | line, false, '/' :: '*' :: cs => uncrossed line (closesBlock cs) cs
  | false, false, '/' :: '/' :: cs => !opensBlock ('/' :: cs) && uncrossed true false cs
  | line, false, _ :: cs => uncrossed line false cs

/-- The region of a text that starts in comments of these kinds; what a line comment holds is no
block comment. -/
def Region.inside : (line block : Bool) → Region
  | true, _ => .line
  | false, true => .block
  | false, false => .code

/-! ## Two passes and one scan -/

theorem dropBlockComments_cons {c : Char} {cs : List Char} (h : opensBlock (c :: cs) = false) :
    dropBlockComments false (c :: cs) = c :: dropBlockComments false cs := by
  by_cases hopens : c = '/' ∧ ∃ rest, cs = '*' :: rest
  · obtain ⟨rfl, rest, rfl⟩ := hopens
    have hrest : closesBlock rest = false := h
    simp [dropBlockComments, hrest]
  · rw [dropBlockComments]
    rintro rest rfl rfl
    exact hopens ⟨rfl, rest, rfl⟩

theorem dropBlockComments_inside_cons {c : Char} {cs : List Char}
    (h : ∀ rest, c = '*' → cs = '/' :: rest → False) :
    dropBlockComments true (c :: cs) = dropBlockComments true cs := by
  rw [dropBlockComments]
  exact h

theorem opensBlock_cons_of_ne {c : Char} {cs : List Char}
    (h : ∀ rest, c = '/' → cs = '*' :: rest → False) :
    opensBlock (c :: cs) = false := by
  unfold opensBlock
  split
  · rename_i rest heq
    obtain ⟨rfl, rfl⟩ := List.cons.inj heq
    exact (h rest rfl rfl).elim
  · rfl

theorem dropLineComments_cons {c : Char} {cs : List Char} (h : c = '/' → cs.head? ≠ some '/') :
    dropLineComments false (c :: cs) = c :: dropLineComments false cs := by
  rw [dropLineComments]
  rintro rest rfl rfl
  exact h rfl rfl

/-- A text that starts with no slash starts as before when its block comments are taken out. -/
theorem head?_dropBlockComments_ne {cs : List Char} (h : cs.head? ≠ some '/') :
    (dropBlockComments false cs).head? ≠ some '/' := by
  cases cs with
  | nil => exact h
  | cons c cs =>
    rw [dropBlockComments_cons (opensBlock_cons_of_ne fun _ hc _ => h (hc ▸ rfl))]
    exact h

theorem dropLineComments_inside_cons {c : Char} (h : c ≠ '\n') (cs : List Char) :
    dropLineComments true (c :: cs) = dropLineComments true cs := by
  rw [dropLineComments]
  exact h

theorem scanComments_line_cons {c : Char} (h : c ≠ '\n') (cs : List Char) :
    scanComments .line (c :: cs) = scanComments .line cs := by
  rw [scanComments]
  exact h

theorem scanComments_block_cons {c : Char} {cs : List Char}
    (h : ∀ rest, c = '*' → cs = '/' :: rest → False) :
    scanComments .block (c :: cs) = scanComments .block cs := by
  rw [scanComments]
  exact h

theorem scanComments_code_cons {c : Char} {cs : List Char}
    (hblock : ∀ rest, c = '/' → cs = '*' :: rest → False)
    (hline : ∀ rest, c = '/' → cs = '/' :: rest → False) :
    scanComments .code (c :: cs) = some c :: scanComments .code cs := by
  rw [scanComments]
  exacts [hblock, hline]

/-- **The two passes leave what one scan leaves**, if no block comment crosses a line comment. -/
theorem dropLineComments_dropBlockComments {line block : Bool} {cs : List Char}
    (h : uncrossed line block cs = true) :
    dropLineComments line (dropBlockComments block cs) =
      (scanComments (.inside line block) cs).reduceOption := by
  induction line, block, cs using uncrossed.induct with
  | case1 => simp [dropBlockComments, dropLineComments, scanComments]
  | case2 line cs ih =>
    rw [uncrossed] at h
    rw [dropBlockComments, ih h]
    cases line <;> simp [Region.inside, scanComments]
  | case3 block cs ih =>
    rw [uncrossed, Bool.and_eq_true, Bool.not_eq_true'] at h
    obtain ⟨rfl, h⟩ := h
    rw [dropBlockComments_cons rfl, dropLineComments, ih h]
    simp [Region.inside, scanComments]
  | case4 line c cs hclose hend ih =>
    have hrest : uncrossed line true cs = true := by
      rw [uncrossed] at h
      exacts [h, hclose, hend]
    rw [dropBlockComments_inside_cons hclose, ih hrest]
    cases line with
    | true => rw [Region.inside, scanComments_line_cons (hend rfl)]
    | false => rw [Region.inside, scanComments_block_cons hclose]
  | case5 line cs ih =>
    rw [uncrossed] at h
    have ih := ih h
    by_cases hclosed : closesBlock cs = true
    · rw [hclosed] at ih
      rw [dropBlockComments, if_pos hclosed, ih]
      cases line <;> simp [Region.inside, scanComments, hclosed]
    · rw [Bool.eq_false_iff.mpr hclosed] at ih
      rw [dropBlockComments, if_neg hclosed]
      cases line <;> simpa [Region.inside, dropLineComments, scanComments, hclosed] using ih
  | case6 cs ih =>
    rw [uncrossed, Bool.and_eq_true, Bool.not_eq_true'] at h
    rw [dropBlockComments_cons (opensBlock_cons_of_ne (by simp)), dropBlockComments_cons h.1,
      dropLineComments, ih h.2]
    simp [Region.inside, scanComments]
  | case7 line c cs hend hopen hline ih =>
    have hrest : uncrossed line false cs = true := by
      rw [uncrossed] at h
      exacts [h, hopen, hend, hline]
    rw [dropBlockComments_cons (opensBlock_cons_of_ne hopen)]
    cases line with
    | true =>
      rw [dropLineComments_inside_cons (hend rfl), ih hrest, Region.inside,
        scanComments_line_cons (hend rfl)]
    | false =>
      have hslash : c = '/' → (dropBlockComments false cs).head? ≠ some '/' := by
        intro hc
        refine head?_dropBlockComments_ne fun hhead => ?_
        obtain ⟨rest, rfl⟩ := List.head?_eq_some_iff.mp hhead
        exact hline rest rfl hc rfl
      rw [dropLineComments_cons hslash, ih hrest, Region.inside,
        scanComments_code_cons hopen (hline · rfl)]
      rfl

theorem dropComments_eq_scanComments {code : List Char} (h : uncrossed false false code = true) :
    dropComments code = (scanComments .code code).reduceOption :=
  dropLineComments_dropBlockComments h

/-! ## A space for each comment -/

/-- The text of a scan with a space for each comment. -/
def withSpaces (pieces : List (Option Char)) : List Char := pieces.map (·.getD ' ')

/-- Whether no comment stands between two word characters; `atWord` tells whether the character
before the text belongs to a word. -/
def keepsWords : (atWord : Bool) → List (Option Char) → Bool
  | _, [] => true
  | _, some c :: pieces => keepsWords (isWordChar c) pieces
  | atWord, none :: pieces => (!atWord || endsWord pieces.reduceOption) && keepsWords atWord pieces

section Spaces

variable {pieces : List (Option Char)}

theorem keepsWords_false (h : keepsWords true pieces = true) : keepsWords false pieces = true := by
  induction pieces with
  | nil => rfl
  | cons piece pieces ih =>
    cases piece with
    | none =>
      rw [keepsWords, Bool.and_eq_true] at h
      exact ih h.2
    | some c => exact h

/-- Blanks and the comments among them are dropped from either text. -/
theorem dropWhile_isBlank_reduceOption (pieces : List (Option Char)) :
    pieces.reduceOption.dropWhile isBlank = (pieces.dropWhile (·.all isBlank)).reduceOption := by
  induction pieces with
  | nil => rfl
  | cons piece pieces ih =>
    cases piece with
    | none => simpa using ih
    | some c => by_cases hc : isBlank c = true <;> simp [hc, ih]

theorem dropWhile_isBlank_withSpaces (pieces : List (Option Char)) :
    (withSpaces pieces).dropWhile isBlank = withSpaces (pieces.dropWhile (·.all isBlank)) := by
  induction pieces with
  | nil => rfl
  | cons piece pieces ih =>
    have hspace : isBlank ' ' = true := by decide
    unfold withSpaces at ih ⊢
    cases piece with
    | none => simpa [List.dropWhile_cons, hspace] using ih
    | some c => by_cases hc : isBlank c = true <;> simp [hc, ih]

theorem keepsWords_dropWhile {atWord : Bool} (h : keepsWords atWord pieces = true) :
    keepsWords true (pieces.dropWhile (·.all isBlank)) = true := by
  induction pieces generalizing atWord with
  | nil => rfl
  | cons piece pieces ih =>
    cases piece with
    | none =>
      rw [keepsWords, Bool.and_eq_true] at h
      exact ih h.2
    | some c =>
      by_cases hc : isBlank c = true
      · simpa [hc] using ih h
      · simpa [hc, keepsWords] using h

/-- After blanks both texts go on with the same character. -/
theorem head?_withSpaces_dropWhile (pieces : List (Option Char)) :
    (withSpaces (pieces.dropWhile (·.all isBlank))).head? =
      (pieces.dropWhile (·.all isBlank)).reduceOption.head? := by
  cases hrest : pieces.dropWhile (·.all isBlank) with
  | nil => rfl
  | cons piece rest =>
    have hpiece := List.head?_dropWhile_not (·.all isBlank) pieces
    rw [hrest] at hpiece
    cases piece with
    | none => simp at hpiece
    | some c => rfl

theorem dropWord?_of_endsWord {first : Char} {cs : List Char} (hfirst : isWordChar first = true)
    (h : endsWord cs = true) (word : List Char) : dropWord? id (first :: word) cs = none := by
  cases cs with
  | nil => rfl
  | cons c cs =>
    have hc : c ≠ first := by
      rintro rfl
      rw [endsWord, hfirst] at h
      cases h
    simp [dropWord?, hc]

/-- A word is found in both texts or in neither, with the same pieces behind it. -/
theorem dropWord?_pieces {word : List Char} (hword : word.all isWordChar = true)
    (h : keepsWords true pieces = true) :
    (∃ rest, keepsWords true rest = true ∧
      dropWord? id word pieces.reduceOption = some rest.reduceOption ∧
        dropWord? id word (withSpaces pieces) = some (withSpaces rest)) ∨
      dropWord? id word pieces.reduceOption = none ∧
      dropWord? id word (withSpaces pieces) = none := by
  induction word generalizing pieces with
  | nil => exact Or.inl ⟨pieces, h, rfl, rfl⟩
  | cons first word ih =>
    rw [List.all_cons, Bool.and_eq_true] at hword
    obtain ⟨hfirst, hlater⟩ := hword
    cases pieces with
    | nil => exact Or.inr ⟨rfl, rfl⟩
    | cons piece pieces =>
      cases piece with
      | none =>
        rw [keepsWords, Bool.and_eq_true] at h
        have hspace : dropWord? id (first :: word) (' ' :: withSpaces pieces) = none :=
          dropWord?_of_endsWord hfirst rfl word
        exact Or.inr ⟨dropWord?_of_endsWord hfirst h.1 word, hspace⟩
      | some c =>
        by_cases hc : c = first
        · subst hc
          rw [keepsWords, hfirst] at h
          simpa [dropWord?, withSpaces] using ih hlater h
        · exact Or.inr ⟨by simp [dropWord?, hc], by simp [dropWord?, withSpaces, hc]⟩

/-- Where a word follows, blanks stand before it in both texts or in neither. -/
theorem isEmpty_takeWhile_withSpaces (h : keepsWords true pieces = true)
    (hword : endsWord (pieces.reduceOption.dropWhile isBlank) = false) :
    ((withSpaces pieces).takeWhile isBlank).isEmpty =
      (pieces.reduceOption.takeWhile isBlank).isEmpty := by
  cases pieces with
  | nil => rfl
  | cons piece pieces =>
    cases piece with
    | some c => by_cases hc : isBlank c = true <;> simp [withSpaces, hc]
    | none =>
      -- the comment ends a word, so the word that follows comes after a blank
      rw [keepsWords, Bool.and_eq_true] at h
      have hends : endsWord pieces.reduceOption = true := h.1
      rw [List.reduceOption_cons_of_none] at hword ⊢
      cases hrest : pieces.reduceOption with
      | nil =>
        rw [hrest] at hword
        cases hword
      | cons c rest =>
        rw [hrest] at hword hends
        have hc : isBlank c = true := by
          by_contra hc
          rw [List.dropWhile_cons_of_neg hc, hends] at hword
          cases hword
        have hspace : isBlank ' ' = true := by decide
        simp [withSpaces, hspace, hc]

theorem startsSignature_of_endsWord {cs : List Char} (h : endsWord cs = true) :
    startsSignature cs = false := by
  have hint : isWordChar 'i' = true := by decide
  rw [startsSignature, dropWord?_of_endsWord hint h]

theorem startsSignature_withSpaces (h : keepsWords true pieces = true) :
    startsSignature (withSpaces pieces) = startsSignature pieces.reduceOption := by
  have hint : ['i', 'n', 't'].all isWordChar = true := by decide
  have hmain : ['m', 'a', 'i', 'n'].all isWordChar = true := by decide
  unfold startsSignature
  rcases dropWord?_pieces hint h with ⟨rest, hrest, hdropped, hspaced⟩ | ⟨hnone, hnone'⟩
  · rw [hdropped, hspaced]
    dsimp only
    rw [dropWhile_isBlank_withSpaces, dropWhile_isBlank_reduceOption]
    rcases dropWord?_pieces hmain (keepsWords_dropWhile hrest) with
      ⟨last, -, hdropped, hspaced⟩ | ⟨hnone, hnone'⟩
    · have hname : endsWord (rest.reduceOption.dropWhile isBlank) = false := by
        by_contra hends
        rw [Bool.not_eq_false, dropWhile_isBlank_reduceOption] at hends
        rw [dropWord?_of_endsWord (by decide) hends] at hdropped
        cases hdropped
      rw [hdropped, hspaced, isEmpty_takeWhile_withSpaces hrest hname]
      dsimp only
      rw [dropWhile_isBlank_withSpaces, dropWhile_isBlank_reduceOption, head?_withSpaces_dropWhile]
    · simp [hnone, hnone']
  · rw [hnone, hnone']

/-- Whether a character before the text belongs to a word matters only if the text goes on with a
word. -/
theorem holdsSignature_of_endsWord {cs : List Char} (h : endsWord cs = true) (atWord : Bool) :
    holdsSignature atWord cs = holdsSignature false cs := by
  cases cs with
  | nil => rfl
  | cons c cs => simp [holdsSignature, startsSignature_of_endsWord h]

/-- **Spaces for comments do not change whether the signature is there**, if no comment stands
between two word characters. -/
theorem holdsSignature_withSpaces {atWord : Bool} (h : keepsWords atWord pieces = true) :
    holdsSignature atWord (withSpaces pieces) = holdsSignature atWord pieces.reduceOption := by
  induction pieces generalizing atWord with
  | nil => rfl
  | cons piece pieces ih =>
    cases piece with
    | some c =>
      have hstart := @startsSignature_withSpaces (some c :: pieces) h
      have hrest := ih h
      simp only [withSpaces, List.map_cons, Option.getD_some,
        List.reduceOption_cons_of_some] at hstart hrest ⊢
      rw [holdsSignature, holdsSignature, hstart, hrest]
    | none =>
      rw [keepsWords, Bool.and_eq_true] at h
      obtain ⟨hends, hrest⟩ := h
      have hspace : holdsSignature atWord (withSpaces (none :: pieces)) =
          holdsSignature false (withSpaces pieces) := by
        have hblank : startsSignature (' ' :: withSpaces pieces) = false :=
          startsSignature_of_endsWord rfl
        show (!atWord && startsSignature (' ' :: withSpaces pieces) || _) = _
        rw [hblank, Bool.and_false, Bool.false_or]
        rfl
      rw [hspace, List.reduceOption_cons_of_none]
      cases atWord with
      | false => exact ih hrest
      | true =>
        rw [holdsSignature_of_endsWord hends true]
        exact ih (keepsWords_false hrest)

end Spaces

/-! ## The main function -/

/-- A text without literals may define a main function that only the scan finds. -/
theorem main_found_by_scan_fails :
    ¬ ∀ code : List Char, '"' ∉ code → '\'' ∉ code →
      definesMain code = holdsSignature false (withSpaces (scanComments .code code)) := by
  intro h
  have hjoined := h "int/**/main() {}".toList (by decide) (by decide)
  revert hjoined
  decide

-- here no words are joined, but a block comment crosses two line comments
example : keepsWords false (scanComments .code "// /*\nint main() {}\n// */".toList) = true ∧
    definesMain "// /*\nint main() {}\n// */".toList = false ∧
    holdsSignature false (withSpaces (scanComments .code "// /*\nint main() {}\n// */".toList)) =
      true := by decide

/-- **If no block comment crosses a line comment, what is left of a text is what one scan leaves of
it.**  If also no comment stands between two word characters, the text defines a main function
exactly if the scan finds its signature in the text with a space for each comment. -/
theorem definesMain_agrees_with_scan (code : List Char) (h : uncrossed false false code = true) :
    dropComments code = (scanComments .code code).reduceOption ∧
      (keepsWords false (scanComments .code code) = true →
        definesMain code = holdsSignature false (withSpaces (scanComments .code code))) := by
  have hdropped := dropComments_eq_scanComments h
  refine ⟨hdropped, fun hwords => ?_⟩
  rw [definesMain, hdropped, holdsSignature_withSpaces hwords]

/-- Comments of each kind that hold the signs of the other one. -/
def commentedMain : List Char := "// /* a */ // b\nint/* c // d */ main // e\n(void) /* f".toList

theorem definesMain_agrees_with_scan_commentedMain :
    uncrossed false false commentedMain = true ∧
    keepsWords false (scanComments .code commentedMain) = true ∧
      dropComments commentedMain = (scanComments .code commentedMain).reduceOption ∧
      definesMain commentedMain = holdsSignature false
        (withSpaces (scanComments .code commentedMain)) ∧
      definesMain commentedMain = true := by
  have huncrossed : uncrossed false false commentedMain = true := by decide
  have hwords : keepsWords false (scanComments .code commentedMain) = true := by decide
  have h := definesMain_agrees_with_scan commentedMain huncrossed
  exact ⟨huncrossed, hwords, h.1, h.2 hwords, by decide⟩

end Amalgam
