/-!
# Lines of a text

A text is cut at a separator and put together again.  A text has one piece more than it has
separators, so a text that ends in a newline has an empty last line.

* `joinAt_cutAt` — putting the pieces of a text together gives the text back.
* `cutAt_joinAt` — pieces without separators are recovered from the joined text.
-/

set_option autoImplicit false

namespace Amalgam

/-- The pieces of a text between separators; there is always at least one. -/
def cutAt (sep : Char) : List Char → List (List Char)
  | [] => [[]]
  | c :: cs =>
    if c = sep then [] :: cutAt sep cs
    else
      match cutAt sep cs with
      | [] => [[c]]
      | l :: ls => (c :: l) :: ls

/-- Pieces with a separator between each two. -/
def joinAt (sep : Char) : List (List Char) → List Char
  | [] => []
  | [l] => l
  | l :: l' :: ls => l ++ sep :: joinAt sep (l' :: ls)

variable {sep : Char}

theorem cutAt_ne_nil (cs : List Char) : cutAt sep cs ≠ [] := by
  cases cs with
  | nil => simp [cutAt]
  | cons c cs =>
    simp only [cutAt]
    split
    · simp
    · split <;> simp

theorem joinAt_cons (l : List Char) {ls : List (List Char)} (h : ls ≠ []) :
    joinAt sep (l :: ls) = l ++ sep :: joinAt sep ls := by
  cases ls with
  | nil => exact absurd rfl h
  | cons l' ls => rfl

/-- Joining the pieces of a text gives the text back. -/
theorem joinAt_cutAt (cs : List Char) : joinAt sep (cutAt sep cs) = cs := by
  induction cs with
  | nil => rfl
  | cons c cs ih =>
    simp only [cutAt]
    split
    · rename_i h
      rw [joinAt_cons [] (cutAt_ne_nil cs), ih, h]
      rfl
    · split
      · rename_i h
        exact absurd h (cutAt_ne_nil cs)
      · rename_i l ls h
        rw [h] at ih
        cases ls with
        | nil => simpa [joinAt] using ih
        | cons l' ls => simpa [joinAt] using ih

/-- A text without separators is one piece. -/
theorem cutAt_of_not_mem {l : List Char} (h : sep ∉ l) : cutAt sep l = [l] := by
  induction l with
  | nil => rfl
  | cons c cs ih =>
    simp only [List.mem_cons, not_or] at h
    simp only [cutAt, ih h.2]
    rw [if_neg (fun e => h.1 e.symm)]

/-- The pieces on both sides of a separator are those of the two sides. -/
theorem cutAt_append_cons (cs rest : List Char) :
    cutAt sep (cs ++ sep :: rest) = cutAt sep cs ++ cutAt sep rest := by
  induction cs with
  | nil => simp [cutAt]
  | cons c cs ih =>
    obtain ⟨l, ls, hl⟩ := List.exists_cons_of_ne_nil (@cutAt_ne_nil sep cs)
    rw [hl] at ih
    by_cases hc : c = sep <;> simp [cutAt, hc, hl, ih]

/-- The pieces of a joined text are those of its parts. -/
theorem cutAt_joinAt_eq_flatMap {ls : List (List Char)} (hne : ls ≠ []) :
    cutAt sep (joinAt sep ls) = ls.flatMap (cutAt sep) := by
  induction ls with
  | nil => exact absurd rfl hne
  | cons l ls ih =>
    cases ls with
    | nil => simp [joinAt]
    | cons l' ls =>
      rw [joinAt_cons l (List.cons_ne_nil l' ls), cutAt_append_cons, ih (List.cons_ne_nil l' ls)]
      rfl

/-- Pieces that hold no separator are recovered from the joined text. -/
theorem cutAt_joinAt {ls : List (List Char)} (hne : ls ≠ []) (h : ∀ l ∈ ls, sep ∉ l) :
    cutAt sep (joinAt sep ls) = ls := by
  rw [cutAt_joinAt_eq_flatMap hne]
  clear hne
  induction ls with
  | nil => rfl
  | cons l ls ih =>
    obtain ⟨hl, hls⟩ := List.forall_mem_cons.mp h
    rw [List.flatMap_cons, cutAt_of_not_mem hl, ih hls]
    rfl

/-- There is one piece more than there are separators. -/
theorem length_cutAt (cs : List Char) : (cutAt sep cs).length = cs.count sep + 1 := by
  induction cs with
  | nil => rfl
  | cons c cs ih =>
    obtain ⟨l, ls, hl⟩ := List.exists_cons_of_ne_nil (@cutAt_ne_nil sep cs)
    rw [hl, List.length_cons] at ih
    by_cases hc : c = sep
    · subst hc
      simp [cutAt, hl, ih]
    · simp [cutAt, hl, hc, ih]

/-- No piece holds a separator. -/
theorem not_mem_of_mem_cutAt {cs l : List Char} (h : l ∈ cutAt sep cs) : sep ∉ l := by
  induction cs generalizing l with
  | nil =>
    simp only [cutAt, List.mem_singleton] at h
    simp [h]
  | cons c cs ih =>
    simp only [cutAt] at h
    split at h
    · rcases List.mem_cons.mp h with rfl | h
      · simp
      · exact ih h
    · rename_i hc
      split at h
      · rename_i hnil
        exact absurd hnil (cutAt_ne_nil cs)
      · rename_i l₀ ls hl
        rcases List.mem_cons.mp h with rfl | h
        · have h₀ : sep ∉ l₀ := ih (by rw [hl]; simp)
          simp only [List.mem_cons, not_or]
          exact ⟨fun e => hc e.symm, h₀⟩
        · exact ih (by rw [hl]; exact List.mem_cons_of_mem _ h)

theorem cutAt_eq_singleton_iff {cs : List Char} : cutAt sep cs = [cs] ↔ sep ∉ cs :=
  ⟨fun h => not_mem_of_mem_cutAt (h ▸ List.mem_singleton_self cs), cutAt_of_not_mem⟩

/-! ## Lines -/

/-- One line of a text, without its newline. -/
abbrev Line := List Char

/-- The lines of a text. -/
abbrev splitLines (cs : List Char) : List Line := cutAt '\n' cs

/-- Lines joined by newlines. -/
abbrev joinLines (ls : List Line) : List Char := joinAt '\n' ls

/-- A text with every carriage return, alone or before a newline, replaced by a newline. -/
def unifyNewlines : List Char → List Char
  | [] => []
  | '\r' :: '\n' :: cs => '\n' :: unifyNewlines cs
  | '\r' :: cs => '\n' :: unifyNewlines cs
  | c :: cs => c :: unifyNewlines cs

end Amalgam
