import Amalgam.Source.Program
import Mathlib.Data.List.Forall2

/-!
# Patterns of names

What a file is and whether it is named after `main` is read off its name.  Here the same is said as
a pattern: a front, a point, an extension in any case, and perhaps a newline at the end.

* `NameFits` — the pattern; `HasExtension` and `IsMainFile` — its two uses.
* `isSourceOf_iff`, `ofName_eq_header_iff`, `isMainName_iff` — the functions that read names
  recognise the patterns.
* `not_hasExtension_header` — no source is a header.
-/

set_option autoImplicit false

namespace Amalgam

/-! ## Patterns -/

/-- The characters spell the word, in any case. -/
def Spells (word cs : List Char) : Prop :=
  List.Forall₂ (fun small c => sameLetter small c = true) word cs

/-- The name is a front of the given form, a point and one of the extensions, and a newline may
follow. -/
def NameFits (Front : List Char → Prop) (extensions : List String) (name : String) : Prop :=
  ∃ front e spelled ending, Front front ∧ e ∈ extensions ∧ Spells e.toList spelled ∧
    (ending = [] ∨ ending = ['\n']) ∧ name.toList = front ++ '.' :: spelled ++ ending

/-- The name ends in one of the extensions. -/
def HasExtension (extensions : List String) (name : String) : Prop :=
  NameFits (fun _ => True) extensions name

def headerExtensions : List String := ["h", "hh", "hpp", "hxx"]

def cppExtensions : List String := ["cpp", "cc", "cxx"]

/-- The extensions of the sources of a language. -/
def sourceExtensions (tag : String) : List String := if tag = "cpp" then cppExtensions else ["c"]

/-- The name is `main` with an extension of a source. -/
def IsMainFile (base : String) : Prop :=
  NameFits (Spells ['m', 'a', 'i', 'n']) (cppExtensions ++ ["c"]) base

/-- An extension that a name ends in as its last part: it holds no point and no newline, and none of
its letters has more than two cases. -/
structure PlainExtension (e : String) : Prop where
  no_point : '.' ∉ e.toList
  no_newline : '\n' ∉ e.toList
  no_i : 'i' ∉ e.toList

instance (e : String) : Decidable (PlainExtension e) :=
  decidable_of_iff ('.' ∉ e.toList ∧ '\n' ∉ e.toList ∧ 'i' ∉ e.toList)
    ⟨fun ⟨hpoint, hnewline, hi⟩ => ⟨hpoint, hnewline, hi⟩,
      fun h => ⟨h.no_point, h.no_newline, h.no_i⟩⟩

/-! ## The newline at the end -/

theorem exists_eq_dropFinalNewline_append (cs : List Char) :
    ∃ ending, (ending = [] ∨ ending = ['\n']) ∧ cs = dropFinalNewline cs ++ ending := by
  unfold dropFinalNewline
  split
  · rename_i hlast
    exact ⟨['\n'], Or.inr rfl, (List.dropLast_append_getLast? '\n' hlast).symm⟩
  · exact ⟨[], Or.inl rfl, (List.append_nil cs).symm⟩

theorem dropFinalNewline_append {cs ending : List Char} (hlast : cs.getLast? ≠ some '\n')
    (hending : ending = [] ∨ ending = ['\n']) : dropFinalNewline (cs ++ ending) = cs := by
  unfold dropFinalNewline
  rcases hending with rfl | rfl
  · rw [List.append_nil, if_neg hlast]
  · rw [List.getLast?_concat, if_pos rfl, List.dropLast_concat]

/-! ## Spelling an extension -/

/-- Without the letter of more than two cases, a word is spelled by what has it as lower case. -/
theorem spells_iff {word cs : List Char} (hword : 'i' ∉ word) :
    Spells word cs ↔ cs.map Char.toLower = word := by
  unfold Spells
  induction word generalizing cs with
  | nil => simp
  | cons w ws ih =>
    simp only [List.mem_cons, not_or] at hword
    cases cs with
    | nil => simp
    | cons c cs =>
      have hletter : sameLetter w c = true ↔ c.toLower = w := by simp [sameLetter, Ne.symm hword.1]
      rw [List.forall₂_cons, ih hword.2, hletter, List.map_cons, List.cons.injEq]

theorem PlainExtension.spells_iff {e : String} (he : PlainExtension e) {spelled : List Char} :
    Spells e.toList spelled ↔ String.ofList (spelled.map Char.toLower) = e := by
  rw [Amalgam.spells_iff he.no_i, ← String.toList_inj, String.toList_ofList]

/-- A character that is its own lower case stands in a spelling only if it stands in the
extension. -/
theorem not_mem_spelled {e : String} {spelled : List Char}
    (h : String.ofList (spelled.map Char.toLower) = e) {c : Char} (hc : c.toLower = c)
    (hmem : c ∉ e.toList) : c ∉ spelled := by
  intro hspelled
  refine hmem ?_
  rw [← h, String.toList_ofList, ← hc]
  exact List.mem_map_of_mem hspelled

theorem PlainExtension.getLast?_ne {e : String} (he : PlainExtension e) {front spelled : List Char}
    (h : String.ofList (spelled.map Char.toLower) = e) :
    (front ++ '.' :: spelled).getLast? ≠ some '\n' := by
  have hnewline : '\n' ∉ spelled := not_mem_spelled h (by decide) he.no_newline
  intro hlast
  have hlast' : ('.' :: spelled).getLast? = some '\n' := by
    rw [← hlast, List.getLast?_append_of_ne_nil _ (List.cons_ne_nil _ _)]
  rcases List.mem_cons.mp (List.mem_of_getLast? hlast') with heq | hmem
  · exact absurd heq (by decide)
  · exact hnewline hmem

/-- A pattern is matched without the newline at the end. -/
theorem nameFits_iff {Front : List Char → Prop} {extensions : List String}
    (hplain : ∀ e ∈ extensions, PlainExtension e) {name : String} :
    NameFits Front extensions name ↔
      ∃ front spelled, dropFinalNewline name.toList = front ++ '.' :: spelled ∧ Front front ∧
        String.ofList (spelled.map Char.toLower) ∈ extensions := by
  constructor
  · rintro ⟨front, e, spelled, ending, hfront, he, hspells, hending, hname⟩
    have hspelled := (hplain e he).spells_iff.mp hspells
    refine ⟨front, spelled, ?_, hfront, hspelled ▸ he⟩
    rw [hname]
    exact dropFinalNewline_append ((hplain e he).getLast?_ne hspelled) hending
  · rintro ⟨front, spelled, hname, hfront, he⟩
    obtain ⟨ending, hending, hsplit⟩ := exists_eq_dropFinalNewline_append name.toList
    refine ⟨front, _, spelled, ending, hfront, he, (hplain _ he).spells_iff.mpr rfl, hending, ?_⟩
    rw [hsplit, hname]

/-! ## Kinds of files -/

theorem exists_last_point {cs : List Char} (h : '.' ∈ cs) :
    ∃ front spelled, cs = front ++ '.' :: spelled ∧ '.' ∉ spelled := by
  obtain ⟨before, after, hsplit, hbefore⟩ := List.eq_append_cons_of_mem (List.mem_reverse.mpr h)
  refine ⟨after.reverse, before.reverse, ?_, fun hmem => hbefore (List.mem_reverse.mp hmem)⟩
  rw [← List.reverse_reverse cs, hsplit]
  simp

theorem afterLastPoint {front spelled : List Char} (h : '.' ∉ spelled) :
    ((front ++ '.' :: spelled).reverse.takeWhile (· != '.')).reverse = spelled := by
  have hpos : ∀ c ∈ spelled.reverse, (c != '.') = true := fun c hc => by
    rw [bne_iff_ne]
    rintro rfl
    exact h (List.mem_reverse.mp hc)
  have hreverse : (front ++ '.' :: spelled).reverse = spelled.reverse ++ '.' :: front.reverse := by
    simp
  rw [hreverse, List.takeWhile_append_of_pos hpos]
  simp

/-- The extension of a name is what follows its last point. -/
theorem extension?_eq_some_iff {name e : String} :
    extension? name = some e ↔
      ∃ front spelled, dropFinalNewline name.toList = front ++ '.' :: spelled ∧ '.' ∉ spelled ∧
        String.ofList (spelled.map Char.toLower) = e := by
  unfold extension?
  constructor
  · intro h
    simp only [Option.ite_none_right_eq_some, List.contains_iff_mem, Option.some.injEq] at h
    obtain ⟨hpoint, hname⟩ := h
    obtain ⟨front, spelled, hsplit, hspelled⟩ := exists_last_point hpoint
    rw [hsplit, afterLastPoint hspelled] at hname
    exact ⟨front, spelled, hsplit, hspelled, hname⟩
  · rintro ⟨front, spelled, hsplit, hspelled, rfl⟩
    simp only [hsplit, afterLastPoint hspelled]
    simp

theorem hasExtension_iff {extensions : List String} (hplain : ∀ e ∈ extensions, PlainExtension e)
    {name : String} :
    HasExtension extensions name ↔ ∃ e ∈ extensions, extension? name = some e := by
  rw [HasExtension, nameFits_iff hplain]
  constructor
  · rintro ⟨front, spelled, hsplit, -, he⟩
    have hpoint : '.' ∉ spelled := not_mem_spelled rfl (by decide) (hplain _ he).no_point
    exact ⟨_, he, extension?_eq_some_iff.mpr ⟨front, spelled, hsplit, hpoint, rfl⟩⟩
  · rintro ⟨e, he, hname⟩
    obtain ⟨front, spelled, hsplit, -, rfl⟩ := extension?_eq_some_iff.mp hname
    exact ⟨front, spelled, hsplit, trivial, he⟩

namespace FileKind

/-- A kind that is known by its extensions is known by the pattern. -/
theorem ofName_eq_iff {kind : FileKind} {extensions : List String}
    (hplain : ∀ e ∈ extensions, PlainExtension e)
    (hkind : ∀ e, ofExtension e = kind ↔ e ∈ extensions) (hother : kind ≠ .other) (name : String) :
    ofName name = kind ↔ HasExtension extensions name := by
  rw [hasExtension_iff hplain]
  unfold ofName
  cases extension? name with
  | none => simpa using hother.symm
  | some e => simp [hkind]

theorem ofExtension_eq_header_iff (e : String) :
    ofExtension e = .header ↔ e ∈ headerExtensions := by
  unfold ofExtension
  split
  · rename_i h
    exact iff_of_true rfl h
  · rename_i h
    refine iff_of_false ?_ h
    split
    · simp
    · split <;> simp

theorem ofExtension_eq_cppSource_iff (e : String) :
    ofExtension e = .cppSource ↔ e ∈ cppExtensions := by
  constructor
  · intro h
    unfold ofExtension at h
    split at h
    · cases h
    · split at h
      · assumption
      · split at h <;> cases h
  · intro h
    have hall : ∀ e ∈ cppExtensions, ofExtension e = .cppSource := by decide
    exact hall e h

theorem ofExtension_eq_cSource_iff (e : String) : ofExtension e = .cSource ↔ e ∈ ["c"] := by
  constructor
  · intro h
    unfold ofExtension at h
    split at h
    · cases h
    · split at h
      · cases h
      · split at h
        · rename_i hc
          exact List.mem_singleton.mpr hc
        · cases h
  · intro h
    rw [List.mem_singleton.mp h]
    rfl

end FileKind

theorem plain_headerExtensions : ∀ e ∈ headerExtensions, PlainExtension e := by decide

theorem plain_mainExtensions : ∀ e ∈ cppExtensions ++ ["c"], PlainExtension e := by decide

/-- **Headers are told by their extension.** -/
theorem ofName_eq_header_iff (name : String) :
    FileKind.ofName name = .header ↔ HasExtension headerExtensions name :=
  FileKind.ofName_eq_iff plain_headerExtensions FileKind.ofExtension_eq_header_iff (by decide) name

/-- **The sources of a language are told by their extension.** -/
theorem isSourceOf_iff (tag name : String) :
    isSourceOf tag name = true ↔ HasExtension (sourceExtensions tag) name := by
  unfold isSourceOf FileKind.sourceOf sourceExtensions
  by_cases htag : tag = "cpp"
  · simp only [htag, if_true, beq_self_eq_true, beq_iff_eq]
    exact FileKind.ofName_eq_iff (by decide) FileKind.ofExtension_eq_cppSource_iff (by decide) name
  · simp only [htag, if_false, beq_iff_eq]
    exact FileKind.ofName_eq_iff (by decide) FileKind.ofExtension_eq_cSource_iff (by decide) name

/-- No source is a header. -/
theorem not_hasExtension_header {tag name : String} (h : HasExtension (sourceExtensions tag) name) :
    ¬ HasExtension headerExtensions name := by
  rw [← isSourceOf_iff, isSourceOf, beq_iff_eq] at h
  rw [← ofName_eq_header_iff, h]
  unfold FileKind.sourceOf
  split <;> decide

/-! ## Names of `main` -/

/-- **A name is recognised as that of `main` by the pattern.** -/
theorem isMainName_iff (base : String) : isMainName base = true ↔ IsMainFile base := by
  rw [IsMainFile, nameFits_iff plain_mainExtensions]
  unfold isMainName
  constructor
  · intro h
    split at h
    · rename_i m a i n rest hsplit
      simp only [Bool.and_eq_true, List.contains_iff_mem] at h
      obtain ⟨⟨⟨⟨hm, ha⟩, hi⟩, hn⟩, hrest⟩ := h
      exact ⟨[m, a, i, n], rest, hsplit, .cons hm (.cons ha (.cons hi (.cons hn .nil))), hrest⟩
    · cases h
  · rintro ⟨front, rest, hsplit, hfront, hrest⟩
    obtain ⟨m, front, hm, hain, rfl⟩ := List.forall₂_cons_left_iff.mp hfront
    obtain ⟨a, front, ha, hin, rfl⟩ := List.forall₂_cons_left_iff.mp hain
    obtain ⟨i, front, hi, hlast, rfl⟩ := List.forall₂_cons_left_iff.mp hin
    obtain ⟨n, front, hn, hend, rfl⟩ := List.forall₂_cons_left_iff.mp hlast
    obtain rfl := List.forall₂_nil_left_iff.mp hend
    rw [hsplit]
    simp only [List.cons_append, List.nil_append, hm, ha, hi, hn, Bool.true_and,
      List.contains_iff_mem]
    exact hrest

end Amalgam
