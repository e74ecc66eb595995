import Amalgam.Proofs.Attribution

/-!
# String literals in line directives

The name of a file stands in a line directive as a string literal.  Whatever the name, the literal
ends with the directive, and the directive can be read back.

* `escapeLiteral_eq_replaceEach` — escaping is replacing the backslashes and then the quotes.
* `LiteralState` — where a reader of a literal stands; `foldl_next_escapeLiteral` — an escaped text
  leaves it inside.
* `readLiteral?_eq_some_iff`, `readPosition?_eq_some_iff` — what the readers of literals and
  directives take.
* `line_directive_reads_back` — a directive gives its file and its number back, and no other pair
  has that directive.
-/

set_option autoImplicit false

namespace Amalgam

/-! ## Escaping in two passes -/

/-- A text with another text in the place of each occurrence of a character. -/
def replaceEach (c : Char) (new : List Char) (cs : List Char) : List Char :=
  cs.flatMap fun d => if d = c then new else [d]

theorem replaceEach_append (c : Char) (new cs ds : List Char) :
    replaceEach c new (cs ++ ds) = replaceEach c new cs ++ replaceEach c new ds :=
  List.flatMap_append

/-- **Escaping replaces the backslashes first and the quotes second.** -/
theorem escapeLiteral_eq_replaceEach (cs : List Char) :
    escapeLiteral cs = replaceEach '"' ['\\', '"'] (replaceEach '\\' ['\\', '\\'] cs) := by
  induction cs with
  | nil => rfl
  | cons c cs ih =>
    rw [← List.singleton_append, replaceEach_append, replaceEach_append, ← ih,
      List.singleton_append, escapeLiteral]
    by_cases hbackslash : c = '\\'
    · subst hbackslash
      rfl
    · by_cases hquote : c = '"'
      · subst hquote
        rfl
      · simp [replaceEach, hbackslash, hquote]

-- The other way round, the backslash of an escaped quote is doubled, and the quote closes the
-- literal.
example :
    readLiteral? (replaceEach '\\' ['\\', '\\'] (replaceEach '"' ['\\', '"'] ['"']) ++ ['"']) =
      none := by
  decide

/-! ## Where a literal ends -/

/-- Where a reader of a literal stands after the opening quote. -/
inductive LiteralState where
  | inside
  /-- Behind a backslash that escapes the next character. -/
  | escaped
  | closed
  deriving DecidableEq, Repr

namespace LiteralState

/-- Reads one character. -/
def next : LiteralState → Char → LiteralState
  | .inside, c => if c = '\\' then .escaped else if c = '"' then .closed else .inside
  | .escaped, _ => .inside
  | .closed, _ => .closed

/-- Where a reader of a literal stands behind a text. -/
def after (cs : List Char) : LiteralState := cs.foldl next .inside

theorem foldl_next_closed (cs : List Char) : cs.foldl next .closed = .closed := by
  induction cs with
  | nil => rfl
  | cons c cs ih => exact ih

/-- An escaped text is read from inside the literal to inside the literal: it neither closes it nor
ends in a backslash that would escape what follows. -/
theorem foldl_next_escapeLiteral (cs : List Char) :
    (escapeLiteral cs).foldl next .inside = .inside := by
  induction cs with
  | nil => rfl
  | cons c cs ih =>
    rw [escapeLiteral]
    by_cases hspecial : c = '\\' ∨ c = '"'
    · -- the backslash in front takes the character with it
      simpa [hspecial, next] using ih
    · obtain ⟨hbackslash, hquote⟩ := not_or.mp hspecial
      simpa [hbackslash, hquote, next] using ih

theorem after_escapeLiteral_quote (cs : List Char) :
    after (escapeLiteral cs ++ ['"']) = .closed := by
  rw [after, List.foldl_append, foldl_next_escapeLiteral]
  rfl

/-- A literal that was closed early would stay closed. -/
theorem after_ne_closed {front cs : List Char} (h : front <+: escapeLiteral cs) :
    after front ≠ .closed := by
  obtain ⟨rest, hrest⟩ := h
  intro hclosed
  have hinside := foldl_next_escapeLiteral cs
  rw [← hrest, List.foldl_append] at hinside
  rw [after] at hclosed
  rw [hclosed, foldl_next_closed] at hinside
  cases hinside

end LiteralState

/-! ## What the readers take -/

theorem eq_of_readLiteral? {cs text : List Char} (h : readLiteral? cs = some text) :
    cs = escapeLiteral text ++ ['"'] := by
  fun_induction readLiteral? cs generalizing text with
  | case1 => cases h
  | case2 cs hend =>
    -- the closing quote
    obtain rfl := Option.some.inj h
    rw [List.isEmpty_iff.mp hend]
    rfl
  | case3 cs hend => cases h
  | case4 c cs hspecial ih =>
    -- an escaped character
    obtain ⟨rest, hrest, rfl⟩ := Option.map_eq_some_iff.mp h
    rw [ih hrest, escapeLiteral, if_pos (by simpa using hspecial)]
    rfl
  | case5 c cs hspecial => cases h
  | case6 c cs hquote hescape ih =>
    obtain ⟨rest, hrest, rfl⟩ := Option.map_eq_some_iff.mp h
    have hbackslash : c ≠ '\\' := by
      -- a backslash that nothing follows is not closed
      rintro rfl
      cases cs with
      | nil => cases hrest
      | cons d ds => exact hescape d ds rfl rfl
    rw [ih hrest, escapeLiteral, if_neg (by simpa using ⟨hbackslash, hquote⟩)]
    rfl

/-- **A text has one literal.** -/
theorem readLiteral?_eq_some_iff {cs text : List Char} :
    readLiteral? cs = some text ↔ cs = escapeLiteral text ++ ['"'] :=
  ⟨eq_of_readLiteral?, fun h => h ▸ readLiteral?_escapeLiteral text⟩

/-- Decimal digits of a number, perhaps with zeros in front. -/
def IsNumeral (number : Nat) (digits : List Char) : Prop :=
  digits ≠ [] ∧ (∀ d ∈ digits, d.isDigit = true) ∧ Nat.ofDigitChars 10 digits 0 = number

/-- **A line is read as a directive exactly if it is one**: the word, a number, a blank and a
literal that ends with the line. -/
theorem readPosition?_eq_some_iff {line : Line} {number : Nat} {name : String} :
    readPosition? line = some ⟨name, number⟩ ↔
      ∃ digits, IsNumeral number digits ∧
        line = "#line ".toList ++ digits ++ " \"".toList ++ escapeLiteral name.toList ++ ['"'] := by
  constructor
  · intro h
    unfold readPosition? at h
    split at h
    · cases h
    · rename_i rest hword
      split at h
      · rename_i d ds cs htake hdrop
        obtain ⟨text, htext, hposition⟩ := Option.map_eq_some_iff.mp h
        obtain ⟨rfl, rfl⟩ := Position.mk.inj hposition
        refine ⟨d :: ds, ⟨List.cons_ne_nil d ds, ?_, rfl⟩, ?_⟩
        · rw [← htake]
          exact List.all_eq_true.mp List.all_takeWhile
        · have hrest : rest = (d :: ds) ++ ' ' :: '"' :: cs := by
            rw [← htake, ← hdrop, List.takeWhile_append_dropWhile]
          rw [eq_append_of_dropWord? hword, hrest, readLiteral?_eq_some_iff.mp htext]
          simp
      · cases h
  · rintro ⟨digits, ⟨hne, hdigits, rfl⟩, rfl⟩
    have hread := readPosition?_digits hne hdigits (escapeLiteral name.toList ++ ['"'])
    rw [readLiteral?_eq_some_iff.mpr rfl] at hread
    simpa using hread

/-! ## The directive -/

theorem eq_of_positionDirective_eq {number number' : Nat} {name name' : String}
    (h : positionDirective number' name' = positionDirective number name) :
    number' = number ∧ name' = name := by
  have hread := readPosition?_positionDirective number' name'
  rw [h, readPosition?_positionDirective] at hread
  obtain ⟨rfl, rfl⟩ := Position.mk.inj (Option.some.inj hread)
  exact ⟨rfl, rfl⟩

/-- **A line directive is read back, whatever the name.**  The literal of the name, made by
replacing first the backslashes and then the quotes, is closed by the last character of the
directive and by none before it.  So the directive is read as its file and its number, and only
lines that differ from it in zeros in front of the number are read as these; no other file and
number have the same directive, and it is one line if the name is. -/
theorem line_directive_reads_back (number : Nat) (name : String) :
    readPosition? (positionDirective number name).toList = some ⟨name, number⟩ ∧
      (∃ literal, literal = replaceEach '"' ['\\', '"']
        (replaceEach '\\' ['\\', '\\'] name.toList) ∧
        (positionDirective number name).toList =
          "#line ".toList ++ Nat.toDigits 10 number ++ " \"".toList ++ literal ++ ['"'] ∧
        (∀ front, front <+: literal → LiteralState.after front ≠ .closed) ∧
        LiteralState.after (literal ++ ['"']) = .closed ∧
        ∀ line, readPosition? line = some ⟨name, number⟩ ↔
          ∃ digits, IsNumeral number digits ∧
            line = "#line ".toList ++ digits ++ " \"".toList ++ literal ++ ['"']) ∧
      (∀ (number' : Nat) (name' : String), positionDirective number' name' =
        positionDirective number name →
        number' = number ∧ name' = name) ∧
      ('\n' ∉ name.toList →
        splitLines (positionDirective number name).toList =
          [(positionDirective number name).toList]) := by
  refine ⟨readPosition?_positionDirective number name, ?_,
    fun _ _ h => eq_of_positionDirective_eq h, ?_⟩
  · refine ⟨escapeLiteral name.toList, escapeLiteral_eq_replaceEach name.toList, ?_,
      fun front hfront => LiteralState.after_ne_closed hfront,
      LiteralState.after_escapeLiteral_quote name.toList, fun line => readPosition?_eq_some_iff⟩
    rw [positionDirective_toList]
    simp
  · intro hname
    exact cutAt_of_not_mem (newline_not_mem_positionDirective hname number)

/-- A name with quotes, with backslashes before a quote and with one at its end. -/
def awkwardName : String := "dir\\a \"b\\\".h\\"

theorem line_directive_reads_back_awkwardName :
    positionDirective 7 awkwardName = "#line 7 \"dir\\\\a \\\"b\\\\\\\".h\\\\\"" ∧
      readPosition? (positionDirective 7 awkwardName).toList = some ⟨awkwardName, 7⟩ ∧
      splitLines (positionDirective 7 awkwardName).toList =
        [(positionDirective 7 awkwardName).toList] ∧
      positionDirective 7 (awkwardName ++ "\"") ≠ positionDirective 7 awkwardName := by
  obtain ⟨hread, -, hinjective, hline⟩ := line_directive_reads_back 7 awkwardName
  refine ⟨by decide +kernel, hread, hline (by decide), ?_⟩
  intro heq
  exact absurd (hinjective _ _ heq).2 (by decide)

end Amalgam
