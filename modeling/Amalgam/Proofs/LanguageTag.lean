import Amalgam.Source.Language

/-!
# Language tags are stable

A tag is a text in lower case without blanks around it.  Making the tag of such a text changes
nothing.

* `IsSmall` — a character that lower case leaves as it is; `lowerCaseAfter_cons` — what one
  character becomes.
* `lowerCase_lowerCase` — a text in lower case stays as it is.
* `Trimmed` — no blank stands at either end; lower case keeps it so.
* `Language.trimmed_tag`, `Language.tag_tag` — a tag is trimmed, and the tag of a tag is the tag.
-/

set_option autoImplicit false

namespace Amalgam

/-! ## The table of capitals -/

namespace CaseRun

/-- The last of the small letters of a run. -/
def lastSmall (r : CaseRun) : Nat := r.small + (r.last - r.first)

/-- Whether no small letter of `r` is a capital of `q`: they lie apart, or alternate.  Written with
`Nat.blt`, it is checked fast for all pairs of runs. -/
def apart (r q : CaseRun) : Bool :=
  Nat.blt r.lastSmall q.first || Nat.blt q.last r.small ||
    (q.step == 2 && (r.step == 2 || r.first == r.last) && (r.small + q.first) % 2 == 1)

/-- Whether no small letter of the run lies in one of the ranges. -/
def avoids (r : CaseRun) (ranges : Ranges) : Bool :=
  ranges.all fun range => r.lastSmall < range.1 || range.2 < r.small

theorem not_covers_of_apart {r q : CaseRun} (h : r.apart q = true) {n : Nat}
    (hn : r.covers n = true) :
    q.covers (r.small + (n - r.first)) = false := by
  simp only [covers, Bool.and_eq_true, decide_eq_true_eq, beq_iff_eq] at hn
  obtain ⟨⟨hfirst, hlast⟩, hstep⟩ := hn
  simp only [apart, lastSmall, Bool.or_eq_true, Bool.and_eq_true, Nat.blt_eq, beq_iff_eq] at h
  refine Bool.eq_false_iff.mpr fun hq => ?_
  simp only [covers, Bool.and_eq_true, decide_eq_true_eq, beq_iff_eq] at hq
  obtain ⟨⟨hqfirst, hqlast⟩, hqstep⟩ := hq
  rcases h with (hbelow | habove) | ⟨⟨htwo, hpoints⟩, hodd⟩
  · omega
  · omega
  · rw [htwo] at hqstep
    rcases hpoints with hrtwo | hsingle
    · rw [hrtwo] at hstep
      omega
    · omega

theorem not_mem_of_avoids {r : CaseRun} {ranges : Ranges} (h : r.avoids ranges = true) {n : Nat}
    (hn : r.covers n = true) : ∀ range ∈ ranges, ¬ (range.1 ≤ r.small + (n - r.first) ∧
      r.small + (n - r.first) ≤ range.2) := by
  simp only [covers, Bool.and_eq_true, decide_eq_true_eq] at hn
  intro range hrange
  have hapart := List.all_eq_true.mp h range hrange
  simp only [Bool.or_eq_true, decide_eq_true_eq] at hapart
  simp only [lastSmall] at hapart
  omega

end CaseRun

/-- Code points that no small letter of the table has: those of blanks, of the two letters that the
table leaves out and of no character. -/
def notSmall : Ranges :=
  whiteSpace ++ [(0x1C, 0x1F), (0x130, 0x130), (0x3A3, 0x3A3), (0xD800, 0xDFFF)]

theorem apart_caseRuns {r q : CaseRun} (hr : r ∈ caseRuns) (hq : q ∈ caseRuns) :
    r.apart q = true := by
  have hall : (caseRuns.all fun r => caseRuns.all r.apart) = true := by decide +kernel
  exact List.all_eq_true.mp (List.all_eq_true.mp hall r hr) q hq

theorem avoids_caseRuns : ∀ r ∈ caseRuns, r.avoids notSmall = true ∧ r.lastSmall < 0x110000 := by
  decide +kernel

/-! ## One character -/

/-- Lower case leaves the character as it is. -/
structure IsSmall (c : Char) : Prop where
  ne_dotted : c ≠ '\u0130'
  ne_sigma : c ≠ '\u03a3'
  smallLetter_eq : smallLetter c = c

theorem smallLetter_of_forall {c : Char} (h : ∀ r ∈ caseRuns, r.covers c.toNat = false) :
    smallLetter c = c := by
  have hnone : caseRuns.find? (fun r => r.covers c.toNat) = none := by
    rw [List.find?_eq_none]
    intro r hr
    simp [h r hr]
  rw [smallLetter, hnone]

/-- The small letter of a character: the character itself, or a small letter of the table. -/
theorem smallLetter_cases (c : Char) :
    smallLetter c = c ∨
      ∃ r ∈ caseRuns, r.covers c.toNat = true ∧
        (smallLetter c).toNat = r.small + (c.toNat - r.first) := by
  cases hfind : caseRuns.find? (fun r => r.covers c.toNat) with
  | none => exact Or.inl (by rw [smallLetter, hfind])
  | some r =>
    have hr := List.mem_of_find?_eq_some hfind
    have hcovers : r.covers c.toNat = true := by simpa using List.find?_some hfind
    refine Or.inr ⟨r, hr, hcovers, ?_⟩
    obtain ⟨havoids, hsize⟩ := avoids_caseRuns r hr
    have hsurrogate := CaseRun.not_mem_of_avoids havoids hcovers (0xD800, 0xDFFF) (by decide)
    simp only [CaseRun.covers, CaseRun.lastSmall, Bool.and_eq_true,
      decide_eq_true_eq] at hcovers hsize
    have hvalid : Nat.isValidChar (r.small + (c.toNat - r.first)) := by
      simp only [Nat.isValidChar]
      omega
    have hletter : smallLetter c = Char.ofNat (r.small + (c.toNat - r.first)) := by
      rw [smallLetter, hfind]
    rw [hletter, Char.ofNat, dif_pos hvalid]
    rfl

theorem isSmall_smallLetter {c : Char} (hdotted : c ≠ '\u0130') (hsigma : c ≠ '\u03a3') :
    IsSmall (smallLetter c) := by
  rcases smallLetter_cases c with heq | ⟨r, hr, hcovers, hcode⟩
  · rw [heq]
    exact ⟨hdotted, hsigma, heq⟩
  · have havoids := CaseRun.not_mem_of_avoids (avoids_caseRuns r hr).1 hcovers
    refine ⟨?_, ?_, ?_⟩
    · intro heq
      refine havoids (0x130, 0x130) (by decide) ?_
      rw [← hcode, heq]
      decide
    · intro heq
      refine havoids (0x3A3, 0x3A3) (by decide) ?_
      rw [← hcode, heq]
      decide
    · refine smallLetter_of_forall fun q hq => ?_
      rw [hcode]
      exact CaseRun.not_covers_of_apart (apart_caseRuns hr hq) hcovers

/-- No blank is a small letter of another character. -/
theorem isBlank_smallLetter {c : Char} (h : isBlank c = false) :
    isBlank (smallLetter c) = false := by
  rcases smallLetter_cases c with heq | ⟨r, hr, hcovers, hcode⟩
  · rw [heq]
    exact h
  · have havoids := CaseRun.not_mem_of_avoids (avoids_caseRuns r hr).1 hcovers
    rw [← hcode] at havoids
    refine Bool.eq_false_iff.mpr fun hblank => ?_
    simp only [isBlank, isWhiteSpace, Ranges.holds, Bool.or_eq_true, List.any_eq_true,
      Bool.and_eq_true, decide_eq_true_eq] at hblank
    rcases hblank with ⟨range, hrange, hbounds⟩ | hbounds
    · exact havoids range (List.mem_append_left _ hrange) hbounds
    · exact havoids (0x1C, 0x1F) (by decide) hbounds

/-! ## Lower case -/

/-- What lower case makes of the first character of a text: at least one character, and only small
ones, none of them blank if it is not.  A small character stays. -/
theorem lowerCaseAfter_cons (before : List Char) (c : Char) (cs : List Char) :
    ∃ piece, lowerCaseAfter before (c :: cs) = piece ++ lowerCaseAfter (c :: before) cs ∧
      piece ≠ [] ∧
      (∀ x ∈ piece, IsSmall x ∧ (isBlank c = false → isBlank x = false)) ∧
      (IsSmall c → piece = [c]) := by
  by_cases hdotted : c = '\u0130'
  · refine ⟨['i', '\u0307'], by simp [lowerCaseAfter, hdotted], by simp, ?_,
      fun h => absurd hdotted h.ne_dotted⟩
    have hi : IsSmall 'i' := ⟨by decide, by decide, by decide +kernel⟩
    have hdot : IsSmall '\u0307' := ⟨by decide, by decide, by decide +kernel⟩
    simp only [List.forall_mem_cons]
    exact ⟨⟨hi, fun _ => by decide⟩, ⟨hdot, fun _ => by decide⟩, by simp⟩
  · by_cases hsigma : c = '\u03a3'
    · have hfinal : IsSmall '\u03c2' := ⟨by decide, by decide, by decide +kernel⟩
      have hplain : IsSmall '\u03c3' := ⟨by decide, by decide, by decide +kernel⟩
      by_cases hend : (meetsCased before && !meetsCased cs) = true
      · refine ⟨['\u03c2'], ?_, by simp, ?_, fun h => absurd hsigma h.ne_sigma⟩
        · rw [lowerCaseAfter, if_neg hdotted, if_pos hsigma, if_pos hend]
        · exact List.forall_mem_singleton.mpr ⟨hfinal, fun _ => by decide⟩
      · refine ⟨['\u03c3'], ?_, by simp, ?_, fun h => absurd hsigma h.ne_sigma⟩
        · rw [lowerCaseAfter, if_neg hdotted, if_pos hsigma, if_neg hend]
        · exact List.forall_mem_singleton.mpr ⟨hplain, fun _ => by decide⟩
    · refine ⟨[smallLetter c], ?_, by simp, ?_, fun h => by rw [h.smallLetter_eq]⟩
      · rw [lowerCaseAfter, if_neg hdotted, if_neg hsigma]
      · exact List.forall_mem_singleton.mpr ⟨isSmall_smallLetter hdotted hsigma,
          isBlank_smallLetter⟩

theorem isSmall_of_mem_lowerCaseAfter (before cs : List Char) :
    ∀ x ∈ lowerCaseAfter before cs, IsSmall x := by
  induction cs generalizing before with
  | nil => simp [lowerCaseAfter]
  | cons c cs ih =>
    obtain ⟨piece, heq, -, hpiece, -⟩ := lowerCaseAfter_cons before c cs
    rw [heq]
    exact List.forall_mem_append.mpr ⟨fun x hx => (hpiece x hx).1, ih (c :: before)⟩

theorem lowerCaseAfter_of_isSmall (before : List Char) {cs : List Char} (h : ∀ x ∈ cs, IsSmall x) :
    lowerCaseAfter before cs = cs := by
  induction cs generalizing before with
  | nil => rfl
  | cons c cs ih =>
    obtain ⟨hc, hcs⟩ := List.forall_mem_cons.mp h
    obtain ⟨piece, heq, -, -, hsame⟩ := lowerCaseAfter_cons before c cs
    rw [heq, hsame hc, ih (c :: before) hcs]
    rfl

/-- **A text in lower case stays as it is.** -/
theorem lowerCase_lowerCase (cs : List Char) : lowerCase (lowerCase cs) = lowerCase cs :=
  lowerCaseAfter_of_isSmall [] (isSmall_of_mem_lowerCaseAfter [] cs)

/-! ## Blanks at the ends -/

/-- No blank stands at either end. -/
structure Trimmed (cs : List Char) : Prop where
  head : ∀ c, cs.head? = some c → isBlank c = false
  last : ∀ c, cs.getLast? = some c → isBlank c = false

theorem dropWhile_eq_self {p : Char → Bool} {cs : List Char}
    (h : ∀ c, cs.head? = some c → p c = false) :
    cs.dropWhile p = cs := by
  cases cs with
  | nil => rfl
  | cons c cs => simp [h c rfl]

theorem trimBlanks_of_trimmed {cs : List Char} (h : Trimmed cs) : trimBlanks cs = cs := by
  have hlast : ∀ c, cs.reverse.head? = some c → isBlank c = false := by simpa using h.last
  unfold trimBlanks trimBoth
  rw [dropWhile_eq_self h.head, dropWhile_eq_self hlast, List.reverse_reverse]

theorem head?_dropWhile_isBlank (cs : List Char) :
    ∀ c, (cs.dropWhile isBlank).head? = some c → isBlank c = false := by
  intro c hc
  have hnot := List.head?_dropWhile_not isBlank cs
  rw [hc] at hnot
  simpa using hnot

theorem trimmed_trimBlanks (cs : List Char) : Trimmed (trimBlanks cs) := by
  unfold trimBlanks trimBoth
  generalize hfront : cs.dropWhile isBlank = front
  constructor
  · -- dropping blanks at the end leaves the first character, or nothing
    intro c hc
    obtain ⟨dropped, hdropped⟩ : front.reverse.dropWhile isBlank <:+ front.reverse :=
      List.dropWhile_suffix isBlank
    have hsplit : front = (front.reverse.dropWhile isBlank).reverse ++ dropped.reverse := by
      rw [← List.reverse_append, hdropped, List.reverse_reverse]
    have hhead : front.head? = some c := by
      rw [hsplit, List.head?_append, hc]
      rfl
    rw [← hfront] at hhead
    exact head?_dropWhile_isBlank cs c hhead
  · intro c hc
    rw [List.getLast?_reverse] at hc
    exact head?_dropWhile_isBlank front.reverse c hc

/-- The last character of a text in lower case comes from the last character of the text. -/
theorem getLast?_lowerCaseAfter (before : List Char) {cs : List Char}
    (h : ∀ c, cs.getLast? = some c → isBlank c = false) :
    ∀ x, (lowerCaseAfter before cs).getLast? = some x → isBlank x = false := by
  induction cs generalizing before with
  | nil => simp [lowerCaseAfter]
  | cons c cs ih =>
    obtain ⟨piece, heq, hne, hpiece, -⟩ := lowerCaseAfter_cons before c cs
    intro x hx
    rw [heq] at hx
    cases cs with
    | nil =>
      have hmem : x ∈ piece := by simpa [lowerCaseAfter] using List.mem_of_getLast? hx
      exact (hpiece x hmem).2 (h c rfl)
    | cons d ds =>
      obtain ⟨later, hlater, hlaterne, -⟩ := lowerCaseAfter_cons (c :: before) d ds
      have hrest : lowerCaseAfter (c :: before) (d :: ds) ≠ [] := by simp [hlater, hlaterne]
      rw [List.getLast?_append, List.getLast?_eq_some_getLast hrest] at hx
      refine ih (c :: before) (by simpa using h) x ?_
      rw [List.getLast?_eq_some_getLast hrest]
      exact hx

/-- **Lower case puts no blank at an end.** -/
theorem Trimmed.lowerCase {cs : List Char} (h : Trimmed cs) : Trimmed (lowerCase cs) := by
  refine ⟨?_, getLast?_lowerCaseAfter [] h.last⟩
  intro x hx
  cases cs with
  | nil => cases hx
  | cons c cs =>
    obtain ⟨piece, heq, hne, hpiece, -⟩ := lowerCaseAfter_cons [] c cs
    obtain ⟨first, piece, rfl⟩ := List.exists_cons_of_ne_nil hne
    rw [Amalgam.lowerCase, heq] at hx
    obtain rfl := Option.some.inj hx
    exact (hpiece first List.mem_cons_self).2 (h.head c rfl)

/-! ## Tags -/

namespace Language

/-- What a tag can be: the common name of its aliases, or a text that is none of them. -/
theorem tag_cases (name : String) :
    tag name = "cpp" ∨
      tag name = String.ofList (lowerCase (trimBlanks name.toList)) ∧ tag name ∉ cppAliases := by
  by_cases halias : String.ofList (lowerCase (trimBlanks name.toList)) ∈ cppAliases
  · exact Or.inl (if_pos halias)
  · have hname : tag name = String.ofList (lowerCase (trimBlanks name.toList)) := if_neg halias
    exact Or.inr ⟨hname, hname ▸ halias⟩

/-- **A tag has no blanks around it.** -/
theorem trimmed_tag (name : String) : Trimmed (tag name).toList := by
  rcases tag_cases name with hcpp | ⟨hname, -⟩
  · have htrim : trimBlanks "cpp".toList = "cpp".toList := by decide
    rw [hcpp, ← htrim]
    exact trimmed_trimBlanks _
  · rw [hname, String.toList_ofList]
    exact (trimmed_trimBlanks name.toList).lowerCase

theorem tag_not_mem_aliases (name : String) : tag name ∉ ["c++", "cxx", "cc"] := by
  rcases tag_cases name with hcpp | ⟨-, hnone⟩
  · rw [hcpp]
    decide
  · have haliases : ["c++", "cxx", "cc"] ⊆ cppAliases := by decide
    exact fun hmem => hnone (haliases hmem)

/-- **The tag of a tag is the tag.** -/
theorem tag_tag (name : String) : tag (tag name) = tag name := by
  rcases tag_cases name with hcpp | ⟨hname, hnone⟩
  · rw [hcpp]
    decide +kernel
  · have hplain : String.ofList (lowerCase (trimBlanks (tag name).toList)) = tag name := by
      rw [trimBlanks_of_trimmed (trimmed_tag name), hname, String.toList_ofList,
        lowerCase_lowerCase]
    rw [tag, hplain]
    exact if_neg hnone

end Language

end Amalgam
