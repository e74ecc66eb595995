import Amalgam.Proofs.Bundle

/-!
# Which file an include means

Two files may share a name, and files with different names may share a basename.  An include means
the last file of its name, or else the last file of its basename.

* `IsFirst`, `IsLast` — the first and the last of the files that have a property;
  `isLast_of_findLast?` — a search from the end finds the last one.
* `LastPart`, `lastPart_iff` — the basename of a path is what follows its last separator.
* `target?_isLast` — the file that an include means is the last one of its own name.
* `include_means_last_file` — so a name stands for one file, whatever include it was reached by.
-/

set_option autoImplicit false

namespace Amalgam

/-! ## First and last files -/

/-- The file stands at its position among the files, and it has the property. -/
structure StandsIn (files : List TextFile) (P : TextFile → Prop) (p : Placed) : Prop where
  here : files[p.position]? = some p.file
  holds : P p.file

/-- No file before it has the property. -/
structure IsFirst (files : List TextFile) (P : TextFile → Prop) (p : Placed) :
    Prop extends StandsIn files P p where
  first : ∀ i file, files[i]? = some file → P file → p.position ≤ i

/-- No file after it has the property. -/
structure IsLast (files : List TextFile) (P : TextFile → Prop) (p : Placed) :
    Prop extends StandsIn files P p where
  last : ∀ i file, files[i]? = some file → P file → i ≤ p.position

section Places

variable {files : List TextFile} {P : TextFile → Prop} {p p' : Placed}

theorem StandsIn.mem (h : StandsIn files P p) : p.file ∈ files := List.mem_of_getElem? h.here

/-- There is one last file with the property. -/
theorem IsLast.unique (h : IsLast files P p) (h' : IsLast files P p') : p = p' := by
  have hle := h'.last _ _ h.here h.holds
  have hge := h.last _ _ h'.here h'.holds
  exact eq_of_position_eq (mem_place_iff.mpr h.here) (mem_place_iff.mpr h'.here)
    (Nat.le_antisymm hle hge)

theorem pairwise_place (files : List TextFile) :
    (place files).Pairwise fun p q => p.position < q.position := by
  have hpositions : (place files).map (·.position) = List.range' 0 files.length := by
    simp [place, List.zipIdx_map_snd, Function.comp_def]
  have hsorted : ((place files).map (·.position)).Pairwise (· < ·) := by
    rw [hpositions]
    exact List.pairwise_lt_range'
  exact List.pairwise_map.mp hsorted

theorem isFirst_of_split {before after : List Placed} (h : place files = before ++ p :: after)
    (hP : P p.file) (hbefore : ∀ q ∈ before, ¬ P q.file) : IsFirst files P p := by
  have hsorted := pairwise_place files
  rw [h, List.pairwise_append, List.pairwise_cons] at hsorted
  obtain ⟨-, ⟨hlater, -⟩, -⟩ := hsorted
  refine ⟨⟨mem_place_iff.mp (by simp [h]), hP⟩, fun i file hfile hfileP => ?_⟩
  have hmem : ⟨i, file⟩ ∈ place files := mem_place_iff.mpr hfile
  rw [h, List.mem_append, List.mem_cons] at hmem
  rcases hmem with hmem | heq | hmem
  · exact absurd hfileP (hbefore _ hmem)
  · exact Nat.le_of_eq (congrArg Placed.position heq).symm
  · exact Nat.le_of_lt (hlater _ hmem)

theorem isLast_of_split {before after : List Placed} (h : place files = before ++ p :: after)
    (hP : P p.file) (hafter : ∀ q ∈ after, ¬ P q.file) : IsLast files P p := by
  have hsorted := pairwise_place files
  rw [h, List.pairwise_append] at hsorted
  obtain ⟨-, -, hearlier⟩ := hsorted
  refine ⟨⟨mem_place_iff.mp (by simp [h]), hP⟩, fun i file hfile hfileP => ?_⟩
  have hmem : ⟨i, file⟩ ∈ place files := mem_place_iff.mpr hfile
  rw [h, List.mem_append, List.mem_cons] at hmem
  rcases hmem with hmem | heq | hmem
  · exact Nat.le_of_lt (hearlier _ hmem p List.mem_cons_self)
  · exact Nat.le_of_eq (congrArg Placed.position heq)
  · exact absurd hfileP (hafter _ hmem)

variable {test : TextFile → Bool} (htest : ∀ file, test file = true ↔ P file)

include htest

/-- A search finds the first file with the property. -/
theorem isFirst_of_find? (h : (place files).find? (fun q => test q.file) = some p) :
    IsFirst files P p := by
  obtain ⟨hp, earlier, later, hplace, hearlier⟩ := List.find?_eq_some_iff_append.mp h
  refine isFirst_of_split hplace ((htest _).mp hp) fun q hq hP => ?_
  have hmiss := hearlier q hq
  rw [(htest _).mpr hP] at hmiss
  cases hmiss

theorem find?_place_eq_none_iff :
    (place files).find? (fun q => test q.file) = none ↔ ∀ file ∈ files, ¬ P file := by
  simp only [List.find?_eq_none, htest]
  constructor
  · intro h file hfile
    obtain ⟨p, hp, rfl⟩ := exists_mem_place.mpr hfile
    exact h p hp
  · intro h p hp
    exact h p.file (exists_mem_place.mp ⟨p, hp, rfl⟩)

/-- A search from the end finds the last file with the property. -/
theorem isLast_of_findLast? (h : findLast? (fun q => test q.file) (place files) = some p) :
    IsLast files P p := by
  obtain ⟨hp, later, earlier, hsplit, hlater⟩ := List.find?_eq_some_iff_append.mp h
  have hplace : place files = earlier.reverse ++ p :: later.reverse := by
    rw [← List.reverse_reverse (place files), hsplit]
    simp
  refine isLast_of_split hplace ((htest _).mp hp) fun q hq hP => ?_
  have hmiss := hlater q (List.mem_reverse.mp hq)
  rw [(htest _).mpr hP] at hmiss
  cases hmiss

theorem findLast?_place_eq_none_iff :
    findLast? (fun q => test q.file) (place files) = none ↔ ∀ file ∈ files, ¬ P file := by
  rw [← find?_place_eq_none_iff htest, findLast?, List.find?_eq_none, List.find?_eq_none]
  simp only [List.mem_reverse]

end Places

/-! ## The last part of a path -/

/-- The last part of a path follows its last separator; it is the whole path if there is none. -/
structure LastPart (path part : String) : Prop where
  follows : ∃ folder, path.toList = folder ++ part.toList ∧ ∀ c, folder.getLast? = some c →
    isSeparator c = true
  whole : ∀ c ∈ part.toList, isSeparator c = false

theorem lastPart_basename (path : String) : LastPart path (basename path) := by
  have hpart : (basename path).toList =
      (path.toList.reverse.takeWhile fun c => !isSeparator c).reverse :=
    String.toList_ofList
  constructor
  · refine ⟨(path.toList.reverse.dropWhile fun c => !isSeparator c).reverse, ?_, fun c hc => ?_⟩
    · rw [hpart, ← List.reverse_append, List.takeWhile_append_dropWhile, List.reverse_reverse]
    · rw [List.getLast?_reverse] at hc
      have hhead := List.head?_dropWhile_not (fun c => !isSeparator c) path.toList.reverse
      rw [hc] at hhead
      simpa using hhead
  · intro c hc
    rw [hpart, List.mem_reverse] at hc
    simpa using List.all_eq_true.mp List.all_takeWhile c hc

/-- A path has one last part. -/
theorem lastPart_iff {path part : String} : LastPart path part ↔ part = basename path := by
  refine ⟨fun h => ?_, fun h => h ▸ lastPart_basename path⟩
  obtain ⟨⟨folder, hpath, hfolder⟩, hwhole⟩ := h
  have hstop : folder.reverse.takeWhile (fun c => !isSeparator c) = [] := by
    cases hrev : folder.reverse with
    | nil => rfl
    | cons c rest =>
      have hlast : folder.getLast? = some c := by rw [← List.head?_reverse, hrev]; rfl
      simp [hfolder c hlast]
  have htake : path.toList.reverse.takeWhile (fun c => !isSeparator c) = part.toList.reverse := by
    rw [hpath, List.reverse_append, List.takeWhile_append_of_pos, hstop, List.append_nil]
    intro c hc
    simp [hwhole c (List.mem_reverse.mp hc)]
  rw [basename, htake, List.reverse_reverse, String.ofList_toList]

/-- The paths end in the same part. -/
def SameLastPart (path path' : String) : Prop := ∃ part, LastPart path part ∧ LastPart path' part

theorem sameLastPart_iff {path path' : String} :
    SameLastPart path path' ↔ basename path = basename path' := by
  simp only [SameLastPart, lastPart_iff, exists_eq_left]

/-! ## Includes -/

section Include

variable {files : List TextFile} {name : String} {p : Placed}

theorem hasName_iff (name : String) (file : TextFile) :
    (file.name == name) = true ↔ file.name = name := beq_iff_eq

theorem hasBasename_iff (name : String) (file : TextFile) :
    (basename file.name == basename name) = true ↔ SameLastPart file.name name :=
  beq_iff_eq.trans sameLastPart_iff.symm

/-- The file that an include means is the last one of its own name, also when it was found by its
basename. -/
theorem target?_isLast (h : (Index.ofFiles files).target? name = some p) :
    IsLast files (fun file => file.name = p.file.name) p :=
  isLast_of_findLast? (hasName_iff p.file.name) (Index.byName?_of_target? h)

/-- If some file has the name of an include, the include means the last such file. -/
theorem target?_of_named (h : (Index.ofFiles files).target? name = some p)
    (hnamed : ∃ file ∈ files, file.name = name) :
    IsLast files (fun file => file.name = name) p := by
  obtain ⟨file, hfile, hname⟩ := hnamed
  rcases Option.or_eq_some_iff.mp h with hfound | ⟨hnone, -⟩
  · exact isLast_of_findLast? (hasName_iff name) hfound
  · exact absurd hname ((findLast?_place_eq_none_iff (hasName_iff name)).mp hnone file hfile)

/-- Otherwise it means the last file with the same last part. -/
theorem target?_of_unnamed (h : (Index.ofFiles files).target? name = some p)
    (hunnamed : ∀ file ∈ files, file.name ≠ name) :
    IsLast files (fun file => SameLastPart file.name name) p := by
  have hnone := (findLast?_place_eq_none_iff (hasName_iff name)).mpr hunnamed
  rcases Option.or_eq_some_iff.mp h with hfound | ⟨-, hfound⟩
  · exact absurd (hnone.symm.trans hfound) (by simp)
  · exact isLast_of_findLast? (hasBasename_iff name) hfound

theorem target?_eq_none_iff : (Index.ofFiles files).target? name = none ↔
    (∀ file ∈ files, file.name ≠ name) ∧ ∀ file ∈ files, ¬ SameLastPart file.name name := by
  rw [Index.target?, Option.or_eq_none_iff]
  exact and_congr (findLast?_place_eq_none_iff (hasName_iff name))
    (findLast?_place_eq_none_iff (hasBasename_iff name))

/-- A file that an include means is also what an include of its own name means. -/
theorem target?_name (h : (Index.ofFiles files).target? name = some p) :
    (Index.ofFiles files).target? p.file.name = some p :=
  Option.or_eq_some_iff.mpr (Or.inl (Index.byName?_of_target? h))

end Include

/-- **An include means the last file of its name, or else the last one of its basename, and a name
stands for one file.**  The file is the last one of its own name, an include of that name means the
same file, and so do all includes that lead to a file of that name. -/
theorem include_means_last_file (files : List TextFile) (name : String) :
    (∀ p, (Index.ofFiles files).target? name = some p →
      p.file ∈ files ∧ IsLast files (fun file => file.name = p.file.name) p ∧
      (Index.ofFiles files).target? p.file.name = some p ∧
      ((∃ file ∈ files, file.name = name) → IsLast files (fun file => file.name = name) p) ∧
      ((∀ file ∈ files, file.name ≠ name) →
        IsLast files (fun file => SameLastPart file.name name) p)) ∧
    ((Index.ofFiles files).target? name = none ↔
      (∀ file ∈ files, file.name ≠ name) ∧ ∀ file ∈ files, ¬ SameLastPart file.name name) ∧
    ∀ name' p p', (Index.ofFiles files).target? name = some p →
      (Index.ofFiles files).target? name' = some p' →
      p.file.name = p'.file.name → p = p' := by
  refine ⟨fun p h => ?_, target?_eq_none_iff, fun name' p p' h h' hname => ?_⟩
  · exact ⟨(target?_isLast h).mem, target?_isLast h, target?_name h, target?_of_named h,
      target?_of_unnamed h⟩
  · have hlast' := target?_isLast h'
    rw [← hname] at hlast'
    exact (target?_isLast h).unique hlast'

/-- Two files of one name between which others share its basename, with both kinds of separators. -/
def crowdedFiles : List TextFile :=
  [⟨"a.h", "one"⟩, ⟨"x/a.h", "two"⟩, ⟨"a.h", "three"⟩, ⟨"y\\a.h", "four"⟩]

/-- An include of a name that two files have, and one that only a basename answers. -/
theorem include_means_last_file_crowdedFiles :
    IsLast crowdedFiles (fun file => file.name = "a.h") ⟨2, ⟨"a.h", "three"⟩⟩ ∧
      IsLast crowdedFiles (fun file => SameLastPart file.name "../z\\a.h") ⟨3,
        ⟨"y\\a.h", "four"⟩⟩ := by
  obtain ⟨hexact, -, -⟩ := include_means_last_file crowdedFiles "a.h"
  obtain ⟨-, -, -, hnamed, -⟩ := hexact ⟨2, ⟨"a.h", "three"⟩⟩ (by decide)
  obtain ⟨hbase, -, -⟩ := include_means_last_file crowdedFiles "../z\\a.h"
  obtain ⟨-, -, -, -, hunnamed⟩ := hbase ⟨3, ⟨"y\\a.h", "four"⟩⟩ (by decide)
  exact ⟨hnamed ⟨_, List.mem_cons_self, rfl⟩, hunnamed (by decide)⟩

end Amalgam
