/-!
# Beginnings of texts

Whether a text begins in a given way, and what follows.
-/

set_option autoImplicit false

namespace Amalgam

/-- The rest of a text after a given word; `fold` is applied to the characters of the text before
they are compared. -/
def dropWord? (fold : Char → Char) : (word : List Char) → List Char → Option (List Char)
  | [], cs => some cs
  | _ :: _, [] => none
  | w :: ws, c :: cs => if fold c = w then dropWord? fold ws cs else none

/-- A word is dropped from its own beginning. -/
theorem dropWord?_append (word cs : List Char) : dropWord? id word (word ++ cs) = some cs := by
  induction word with
  | nil => rfl
  | cons w ws ih => simp [dropWord?, ih]

/-- If a word is dropped, the text was the word and the rest. -/
theorem eq_append_of_dropWord? {word cs rest : List Char} (h : dropWord? id word cs = some rest) :
    cs = word ++ rest := by
  induction word generalizing cs with
  | nil =>
    simp only [dropWord?, Option.some.injEq] at h
    simp [h]
  | cons w ws ih =>
    cases cs with
    | nil => simp [dropWord?] at h
    | cons c cs =>
      simp only [dropWord?, id] at h
      split at h
      · rename_i hc
        rw [ih h, hc]
        rfl
      · cases h

/-- Whether a text begins with another one. -/
def beginsWith (start text : String) : Bool := start.toList.isPrefixOf text.toList

end Amalgam
