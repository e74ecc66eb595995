import Amalgam.Remote.Request

/-!
# Spelled texts are read back

A spelling loses nothing of the texts that it was chosen for: reading the spelled text gives the
text.  So files that are sent as they are keep their names and contents, whatever code points these
have, and two names are spelled alike only if they are equal.
-/

set_option autoImplicit false

namespace Amalgam

namespace CodePoint

theorem marked?_mark : marked? mark = some (.char mark) := if_pos rfl

/-- The characters of private use stand for the surrogates, one for one. -/
theorem marked?_place (place : Fin 0x800) :
    marked? (Char.ofNat (0xE000 + place)) = some (.surrogate place) := by
  have hvalid : (0xE000 + place.val).isValidChar := Or.inr (by omega)
  have hnat : (Char.ofNat (0xE000 + place.val)).toNat = 0xE000 + place.val := by
    rw [Char.ofNat, dif_pos hvalid]
    rfl
  have hmark : Char.ofNat (0xE000 + place.val) ≠ mark := by
    intro h
    have hsame := congrArg Char.toNat h
    rw [hnat, show mark.toNat = 0x10FFFF from rfl] at hsame
    omega
  have hrange : 0xE000 ≤ (Char.ofNat (0xE000 + place.val)).toNat ∧
      (Char.ofNat (0xE000 + place.val)).toNat < 0xE800 := by
    rw [hnat]
    omega
  rw [marked?, if_neg hmark, dif_pos hrange]
  simp [hnat]

/-- What was put in code first is read first. -/
theorem decode_code_append (point : CodePoint) (rest : List Char) :
    decode (point.code ++ rest) = point :: decode rest := by
  cases point with
  | surrogate place => simp [code, decode, marked?_place]
  | char c =>
    by_cases hc : c = mark
    · subst hc
      simp [code, decode, marked?_mark]
    · cases rest with
      | nil => simp [code, decode, hc]
      | cons d rest => simp [code, decode, hc]

theorem decode_flatMap_code (points : List CodePoint) : decode (points.flatMap code) = points := by
  induction points with
  | nil => rfl
  | cons point points ih => rw [List.flatMap_cons, decode_code_append, ih]

theorem chars?_map_char (cs : List Char) : chars? (cs.map .char) = some cs := by
  induction cs with
  | nil => rfl
  | cons c cs ih => simp [chars?, ih]

theorem eq_map_char_of_chars? {points : List CodePoint} {cs : List Char}
    (h : chars? points = some cs) :
    points = cs.map .char := by
  induction points generalizing cs with
  | nil =>
    cases h
    rfl
  | cons point points ih =>
    cases point with
    | surrogate place => cases h
    | char c =>
      obtain ⟨rest, hrest, rfl⟩ := Option.map_eq_some_iff.mp h
      rw [ih hrest, List.map_cons]

end CodePoint

namespace Text

theorem ofPoints_points (t : Text) : ofPoints t.points = t := by
  unfold ofPoints
  split
  case h_1 cs hchars =>
    cases t with
    | proper s =>
      rw [points, CodePoint.chars?_map_char, Option.some_inj] at hchars
      rw [← hchars, String.ofList_toList]
    | broken points unpaired => exact absurd (unpaired.symm.trans hchars) nofun
  case h_2 hchars =>
    cases t with
    | proper s => exact absurd ((CodePoint.chars?_map_char _).symm.trans hchars) nofun
    | broken points unpaired => rfl

theorem points_ofPoints (points : List CodePoint) : (ofPoints points).points = points := by
  unfold ofPoints
  split
  case h_1 cs hchars =>
    rw [Text.points, String.toList_ofList, CodePoint.eq_map_char_of_chars? hchars]
  case h_2 => rfl

/-- A text is shown code point by code point. -/
theorem display_eq (t : Text) : t.display = String.ofList (t.points.flatMap CodePoint.display) := by
  cases t with
  | broken points unpaired => rfl
  | proper s =>
    have hchars : (s.toList.map CodePoint.char).flatMap CodePoint.display = s.toList := by
      rw [List.flatMap_map]
      exact List.flatMap_singleton' s.toList
    rw [display, points, hchars, String.ofList_toList]

/-- Texts that are joined are shown one behind the other. -/
theorem display_append (t u : Text) : (t ++ u).display = t.display ++ u.display := by
  have hpoints : (t ++ u).points = t.points ++ u.points := points_ofPoints _
  rw [display_eq, display_eq t, display_eq u, hpoints, List.flatMap_append, String.ofList_append]

/-- A text in code is read back. -/
theorem ofCode_code (t : Text) : ofCode t.code = t := by
  rw [ofCode, code, String.toList_ofList, CodePoint.decode_flatMap_code, ofPoints_points]

theorem display_proper (s : String) : display (.proper s) = s := rfl

/-- A text without unpaired surrogates is shown as it is. -/
theorem proper_display {t : Text} (h : t.isProper = true) : .proper t.display = t := by
  cases t with
  | proper s => rfl
  | broken points unpaired => cases h

end Text

namespace Spelling

/-- Texts that need no code are spelled as they are. -/
theorem of_eq_plain_iff (texts : List Text) :
    of texts = .plain ↔ ∀ t ∈ texts, t.isProper = true := by
  rw [← List.all_eq_true]
  unfold of
  split <;> simp_all

/-- A text that the spelling was chosen for is read back. -/
theorem read_spell {texts : List Text} {t : Text} (h : t ∈ texts) :
    (of texts).read ((of texts).spell t) = t := by
  cases hs : of texts with
  | plain => exact Text.proper_display ((of_eq_plain_iff texts).mp hs t h)
  | coded => exact Text.ofCode_code t

end Spelling

namespace FileRecord

/-- Records keep their names and contents when they are spelled as files and read back. -/
theorem map_record_file (records : List FileRecord) :
    (records.map (spelling records).file).map (spelling records).record = records := by
  rw [List.map_map]
  refine (List.map_congr_left fun r hr => ?_).trans (List.map_id records)
  have hname : r.name ∈ records.flatMap fun r => [r.name, r.content] :=
    List.mem_flatMap.mpr ⟨r, hr, by simp⟩
  have hcontent : r.content ∈ records.flatMap fun r => [r.name, r.content] :=
    List.mem_flatMap.mpr ⟨r, hr, by simp⟩
  calc (spelling records).record ((spelling records).file r)
      = ⟨r.name, (spelling records).read ((spelling records).spell r.content)⟩ :=
        congrArg (FileRecord.mk · _) (Spelling.read_spell hname)
    _ = r := congrArg (FileRecord.mk _ ·) (Spelling.read_spell hcontent)

/-- Files without unpaired surrogates are spelled as they are. -/
theorem spelling_map_record (files : List TextFile) :
    spelling (files.map TextFile.record) = .plain := by
  refine (Spelling.of_eq_plain_iff _).mpr fun t ht => ?_
  obtain ⟨r, hr, ht⟩ := List.mem_flatMap.mp ht
  obtain ⟨file, -, rfl⟩ := List.mem_map.mp hr
  simp only [List.mem_cons, List.not_mem_nil, or_false] at ht
  rcases ht with rfl | rfl <;> rfl

theorem map_file_record (files : List TextFile) :
    (files.map TextFile.record).map Spelling.plain.file = files := by
  rw [List.map_map]
  exact List.map_id files

theorem map_plain_record (files : List TextFile) :
    files.map Spelling.plain.record = files.map TextFile.record := rfl

end FileRecord

end Amalgam
