import Amalgam.Proofs.Commands
import Amalgam.Proofs.Preparation

/-!
# The language decides once

Each layer between a request and the bundle makes the tag of the language it is handed, and the
innermost one asks whether files in that language are bundled.  The answer is the one for the
language as it was first given, whatever value that was.

* `Language.ofValue_ofValue` — the tag of a value is the tag of itself.
* `needsBundlingValue_list` — the decision about a list of files.
* `Decided` — the decision about a language as it was given, and the files that follow from it.
* `language_decides_once` — what is prepared and what is sent follow from that decision.
-/

set_option autoImplicit false

namespace Amalgam

/-! ## Tags of values -/

theorem Value.displayOrEmpty_text (t : Text) : Value.displayOrEmpty (.text t) = t.display := by
  cases t with
  | broken points unpaired => rfl
  | proper s =>
    by_cases hempty : s = ""
    · subst hempty
      rfl
    · have htext : Value.isEmptyLike (.text s) = false := by
        simpa [Value.isEmptyLike, Text.isEmpty] using hempty
      rw [Value.displayOrEmpty, htext]
      rfl

namespace Language

theorem ofValue_text (name : String) : ofValue (.text name) = tag name := by
  rw [ofValue, Value.displayOrEmpty_text, Text.display_proper]

/-- **The tag of a value stays as it is when it is made again.** -/
theorem ofValue_ofValue (v : Value) : ofValue (.text (ofValue v)) = ofValue v := by
  rw [ofValue_text]
  exact tag_tag v.displayOrEmpty

end Language

/-! ## The decision -/

theorem needsBundlingValue_list (v : Value) (items : List Value) :
    needsBundlingValue v (.list items) = .ok (needsBundling v.displayOrEmpty items.length) := by
  unfold needsBundlingValue needsBundling
  rw [Language.ofValue]
  split
  · rename_i hbundled
    simp [hbundled, Value.size?]
  · rename_i hother
    simp [hother]

theorem needsBundlingValue_ofValue (v files : Value) :
    needsBundlingValue (.text (Language.ofValue v)) files = needsBundlingValue v files := by
  unfold needsBundlingValue
  rw [Language.ofValue_ofValue]

/-- What is sent of files in a language given by a value: a bundle or the files, by the decision
about the value as it was given. -/
inductive Decided (v : Value) (files : List FileRecord) (limit : Int) : List FileRecord → Prop where
  | bundled (h : needsBundlingValue v (.list (files.map FileRecord.toValue)) = .ok true) :
      Decided v files limit [⟨.proper (Language.bundleName (Language.ofValue v)),
        FileRecord.bundleText (Language.ofValue v) files limit⟩]
  | alone (h : needsBundlingValue v (.list (files.map FileRecord.toValue)) = .ok false) :
      Decided v files limit files

theorem decided_recordsToSend (v : Value) (files : List FileRecord) (limit : Int) :
    Decided v files limit (recordsToSend v.displayOrEmpty files limit).value := by
  have hdecision := needsBundlingValue_list v (files.map FileRecord.toValue)
  rw [List.length_map] at hdecision
  by_cases hneeds : needsBundling v.displayOrEmpty files.length = true
  · rw [recordsToSend_of_needsBundling hneeds]
    exact .bundled (hneeds ▸ hdecision)
  · rw [recordsToSend_of_not_needsBundling hneeds]
    exact .alone (Bool.eq_false_iff.mpr hneeds ▸ hdecision)

theorem prepareFiles_ofValue (v : Value) (items : List FileItem) (limit : Int) :
    prepareFiles (.text (Language.ofValue v)) items limit = prepareFiles v items limit := by
  unfold prepareFiles
  simp only [Value.displayOrEmpty_text, Text.display_proper, Language.ofValue, recordsToSend_tag]

/-- **The language decides once.**  The tag of a value is the tag of itself, has no blanks around it
and is no other spelling of `cpp`.  Whether files are bundled is the same for a language and for its
tag, so what is prepared for a language, and what is sent for a request, follows from the decision
about the language as it was given. -/
theorem language_decides_once (v : Value) :
    Language.ofValue (.text (Language.ofValue v)) = Language.ofValue v ∧
      Trimmed (Language.ofValue v).toList ∧ Language.ofValue v ∉ ["c++", "cxx", "cc"] ∧
      (∀ files, needsBundlingValue (.text (Language.ofValue v)) files =
        needsBundlingValue v files) ∧
      (∀ items limit, prepareFiles (.text (Language.ofValue v)) items limit =
        prepareFiles v items limit) ∧
      (∀ items files limit, filesFrom 0 items = .ok files →
        ∃ result, prepareFiles v items limit = .ok result ∧ Decided v files limit result.value) ∧
      ∀ (r : Request) (settings : Settings), v = .text r.language →
        ∃ sent, (r.payload settings).value.field? "files" =
          some (.list (sent.map FileRecord.toValue)) ∧
          Decided v r.files settings.includeLimit sent := by
  refine ⟨Language.ofValue_ofValue v, Language.trimmed_tag v.displayOrEmpty,
    Language.tag_not_mem_aliases v.displayOrEmpty, needsBundlingValue_ofValue v,
    prepareFiles_ofValue v, ?_, ?_⟩
  · intro items files limit hvalid
    exact ⟨_, prepareFiles_eq_ok hvalid v limit, decided_recordsToSend v files limit⟩
  · rintro r settings rfl
    refine ⟨_, r.field?_files_payload settings, ?_⟩
    have hdecided := decided_recordsToSend (.text r.language) r.files settings.includeLimit
    rwa [Value.displayOrEmpty_text] at hdecided

/-- A request in C++, spelled with blanks and capitals. -/
def spelledRequest : Request := ⟨"\u3000Cc\u001f", none, none, headerFiles.map TextFile.record⟩

theorem language_decides_once_spelledRequest :
    Language.ofValue (.text spelledRequest.language) = "cpp" ∧
      filesFrom 0 headerItems = .ok spelledRequest.files ∧
      (∃ result, prepareFiles (.text spelledRequest.language) headerItems 0 = .ok result ∧
        result.value = [((Bundle.ofFiles "cpp" headerFiles 0).file "cpp").record]) ∧
      (spelledRequest.payload Settings.default).value.field? "files" =
        some (.list [((Bundle.ofFiles "cpp" headerFiles 32).file "cpp").record.toValue]) := by
  have htag : Language.ofValue (.text spelledRequest.language) = "cpp" := by decide +kernel
  have hvalid : filesFrom 0 headerItems = .ok spelledRequest.files := by rfl
  have hneeds : needsBundlingValue (.text spelledRequest.language)
      (.list (spelledRequest.files.map FileRecord.toValue)) = .ok true := by
    rw [needsBundlingValue, htag]
    rfl
  have hbundle : ∀ limit sent, Decided
      (.text spelledRequest.language) spelledRequest.files limit sent →
      sent = [((Bundle.ofFiles "cpp" headerFiles limit).file "cpp").record] := by
    intro limit sent hdecided
    cases hdecided with
    | bundled =>
      rw [htag, spelledRequest, FileRecord.bundleText_map_record]
      rfl
    | alone hnot =>
      rw [hneeds] at hnot
      cases hnot
  obtain ⟨-, -, -, -, -, hprepared, hsent⟩ := language_decides_once (.text spelledRequest.language)
  obtain ⟨result, hresult, hdecided⟩ := hprepared headerItems spelledRequest.files 0 hvalid
  obtain ⟨sent, hfiles, hdecided'⟩ := hsent spelledRequest Settings.default rfl
  refine ⟨htag, hvalid, ⟨result, hresult, hbundle 0 _ hdecided⟩, ?_⟩
  rw [hfiles, hbundle _ _ hdecided']
  rfl

end Amalgam
