import Amalgam.Proofs.FileRecords

/-!
# Which requests are accepted

A request is an object.  Its files are judged first, then its other fields in their order; a field
that is left out has a default, and fields that nobody asks for do not matter.

* `Value.Requests` — the request that a value stands for.
* `Value.NoRequest` — what is wrong with a value that is no request, and the error that says so.
* `Value.FieldRule` — a field that may be given, and why a value is refused in it.
* `Value.checkField_bind_eq_error_iff` — one field is judged before others; the judgement of all is
  made of such steps.
* `Value.SameFiles`, `Value.SameRequest` — values that differ only in fields that nobody asks for,
  at any level.
* `request_accepted_exactly` — the checks of files and of requests accept what the relations accept,
  and their errors are those of the relations.
-/

set_option autoImplicit false

namespace Amalgam

open Value

/-! ## Requests -/

namespace Value

/-- What a field stands for that may be left out. -/
inductive Reads {α : Type} (fields : Fields) (name : String) (default : α)
    (Means : Value → α → Prop) : α → Prop where
  | absent (h : lookup fields name = none) : Reads fields name default Means default
  | given {v : Value} {a : α} (h : lookup fields name = some v) (hv : Means v a) :
      Reads fields name default Means a

/-- A field that may be given, and why a value is refused in it. -/
structure FieldRule where
  name : String
  Refused : Value → Reason → Prop

/-- Why a field that is given is refused. -/
def FieldRule.Breaks (fields : Fields) (rule : FieldRule) (reason : Reason) : Prop :=
  ∃ v, lookup fields rule.name = some v ∧ rule.Refused v reason

/-- The error names the first of the fields that is refused. -/
def NamesFirst (fields : Fields) (rules : List FieldRule) (e : FieldError) : Prop :=
  ∃ position rule reason,
    FirstRefused (FieldRule.Breaks fields) rules position rule reason ∧ e = ⟨rule.name, reason⟩

section CheckField

variable {α : Type} {fields : Fields} {check : Value → Except Reason α} {default : α}

theorem checkField_eq_ok_iff {name : String} {a : α} {Means : Value → α → Prop}
    (hcheck : ∀ v, check v = .ok a ↔ Means v a) :
    checkField fields name check default = .ok a ↔ Reads fields name default Means a := by
  unfold checkField
  constructor
  · intro h
    cases hlookup : lookup fields name with
    | none =>
      rw [hlookup] at h
      cases h
      exact .absent hlookup
    | some v =>
      rw [hlookup] at h
      cases hv : check v with
      | error reason => simp [hv, mapError_error] at h
      | ok b =>
        obtain rfl : b = a := by simpa [hv, mapError_ok, mapError_error] using h
        exact .given hlookup ((hcheck v).mp hv)
  · intro h
    cases h with
    | absent h => rw [h]
    | given h hv => simp [h, (hcheck _).mpr hv, mapError_ok]

theorem checkField_eq_error_iff {rule : FieldRule} {e : FieldError}
    (hrule : ∀ v reason, check v = .error reason ↔ rule.Refused v reason) :
    checkField fields rule.name check default = .error e ↔
      ∃ reason, rule.Breaks fields reason ∧ e = ⟨rule.name, reason⟩ := by
  unfold checkField FieldRule.Breaks
  cases lookup fields rule.name with
  | none => simp
  | some v =>
    simp only [Option.some.injEq, exists_eq_left', ← hrule]
    cases check v with
    | ok => simp [mapError_ok]
    | error reason => simp [mapError_error, eq_comm]

/-- One field is judged before others. -/
theorem checkField_bind_eq_error_iff {β : Type} (rule : FieldRule) {later : List FieldRule}
    {rest : α → Except FieldError β} {e : FieldError}
    (hrule : ∀ v reason, check v = .error reason ↔ rule.Refused v reason)
    (hrest : ∀ a, rest a = .error e ↔ NamesFirst fields later e) :
    (checkField fields rule.name check default >>= rest) = .error e ↔
      NamesFirst fields (rule :: later) e :=
  bind_eq_error_iff_first (fun _ => checkField_eq_error_iff hrule) hrest

theorem not_namesFirst_nil {e : FieldError} : ¬ NamesFirst fields [] e := by
  rintro ⟨position, rule, reason, hfirst, -⟩
  exact not_firstRefused_nil hfirst

end CheckField

/-- The request that a value stands for. -/
inductive Requests : Value → Request → Prop where
  | object {fields : Fields} {r : Request} (files : Reads fields "files" [] ListsFiles r.files)
      (language : Reads fields "language" (.proper "") (fun v t => v = .text t) r.language)
      (version : Reads fields "version" none TextOrNull r.version)
      (stdin : Reads fields "stdin" none TextOrNull r.stdin) : Requests (.object fields) r

/-- The fields of a request beside its files, in the order in which they are judged. -/
def requestRules : List FieldRule :=
  [⟨"language", NoText⟩, ⟨"version", NoTextOrNull⟩, ⟨"stdin", NoTextOrNull⟩]

/-- What is wrong with a value that is no request.  The files are judged before the other fields. -/
inductive NoRequest : Value → InputError → Prop where
  | notObject {v : Value} (h : ∀ fields, v ≠ .object fields) : NoRequest v (.notObject v.kind)
  | files {fields : Fields} {v : Value} {e : InputError} (hv : lookup fields "files" = some v)
      (h : v.NoFiles e) : NoRequest (.object fields) e
  | badField {fields : Fields} {files : List FileRecord} {e : FieldError}
      (hfiles : Reads fields "files" [] ListsFiles files) (h : NamesFirst fields requestRules e) :
      NoRequest (.object fields) (.badField e)

end Value

namespace Request

theorem ofFields_eq (fields : Fields) (files : List FileRecord) :
    ofFields fields files =
      (checkField fields "language" asText "" >>= fun language =>
        checkField fields "version" asOptionalText none >>= fun version =>
          checkField fields "stdin" asOptionalText none >>= fun stdin =>
            .ok ⟨language, version, stdin, files⟩) := rfl

theorem ofFields_eq_error_iff {fields : Fields} {files : List FileRecord} {e : FieldError} :
    ofFields fields files = .error e ↔ NamesFirst fields requestRules e := by
  have htext : ∀ v reason, asText v = .error reason ↔ NoText v reason :=
    fun _ _ => asText_eq_error_iff
  have hoptional : ∀ v reason, asOptionalText v = .error reason ↔ NoTextOrNull v reason :=
    fun _ _ => asOptionalText_eq_error_iff
  rw [ofFields_eq, requestRules]
  refine checkField_bind_eq_error_iff ⟨"language", NoText⟩ htext fun language => ?_
  refine checkField_bind_eq_error_iff ⟨"version", NoTextOrNull⟩ hoptional fun version => ?_
  refine checkField_bind_eq_error_iff ⟨"stdin", NoTextOrNull⟩ hoptional fun stdin => ?_
  exact ⟨nofun, fun h => absurd h not_namesFirst_nil⟩

theorem ofFields_eq_ok_iff {fields : Fields} {files : List FileRecord} {r : Request} :
    ofFields fields files = .ok r ↔ files = r.files ∧
      Reads fields "language" (.proper "") (fun v t => v = .text t) r.language ∧
      Reads fields "version" none TextOrNull r.version ∧
      Reads fields "stdin" none TextOrNull r.stdin := by
  have htext : ∀ t default, checkField fields "language" asText default = .ok t ↔
      Reads fields "language" default (fun v t => v = .text t) t :=
    fun t default => checkField_eq_ok_iff fun v => asText_eq_ok_iff
  have hoptional : ∀ name o, checkField fields name asOptionalText none = .ok o ↔
      Reads fields name none TextOrNull o :=
    fun name o => checkField_eq_ok_iff fun v => asOptionalText_eq_ok_iff
  simp only [ofFields_eq, bind_eq_ok_iff, htext, hoptional]
  constructor
  · rintro ⟨language, hlanguage, version, hversion, stdin, hstdin, hr⟩
    cases hr
    exact ⟨rfl, hlanguage, hversion, hstdin⟩
  · rintro ⟨rfl, hlanguage, hversion, hstdin⟩
    exact ⟨_, hlanguage, _, hversion, _, hstdin, rfl⟩

/-- The files of a request, which are none if they are not given. -/
theorem filesOfValue_lookup_eq_ok_iff {fields : Fields} {files : List FileRecord} :
    filesOfValue ((lookup fields "files").getD (.list [])) = .ok files ↔
      Reads fields "files" [] ListsFiles files := by
  constructor
  · intro h
    cases hlookup : lookup fields "files" with
    | none =>
      rw [hlookup] at h
      cases h
      exact .absent hlookup
    | some v =>
      rw [hlookup] at h
      exact .given hlookup (filesOfValue_eq_ok_iff.mp h)
  · intro h
    cases h with
    | absent h => rw [h]; rfl
    | given h hv => rw [h]; exact filesOfValue_eq_ok_iff.mpr hv

theorem filesOfValue_lookup_eq_error_iff {fields : Fields} {e : InputError} :
    filesOfValue ((lookup fields "files").getD (.list [])) = .error e ↔
      ∃ v, lookup fields "files" = some v ∧ v.NoFiles e := by
  cases lookup fields "files" with
  | none => exact ⟨nofun, fun ⟨_, h, _⟩ => nomatch h⟩
  | some v => simp [filesOfValue_eq_error_iff]

theorem ofValue_object (fields : Fields) :
    ofValue (.object fields) =
      (filesOfValue ((lookup fields "files").getD (.list [])) >>= fun files =>
        (ofFields fields files).mapError .badField) := by
  rw [ofValue]
  cases filesOfValue ((lookup fields "files").getD (.list [])) <;> rfl

theorem ofValue_of_not_object {v : Value} (h : ∀ fields, v ≠ .object fields) :
    ofValue v = .error (.notObject v.kind) := by
  cases v with
  | object fields => exact absurd rfl (h fields)
  | null | bool | int | real | text | list => rfl

theorem ofValue_eq_ok_iff {v : Value} {r : Request} : ofValue v = .ok r ↔ v.Requests r := by
  by_cases hobject : ∃ fields, v = .object fields
  · obtain ⟨fields, rfl⟩ := hobject
    have hfields : ∀ files, (ofFields fields files).mapError InputError.badField = .ok r ↔
        ofFields fields files = .ok r := by
      intro files
      cases ofFields fields files <;> simp [mapError_ok, mapError_error]
    simp only [ofValue_object, bind_eq_ok_iff, filesOfValue_lookup_eq_ok_iff, hfields,
      ofFields_eq_ok_iff]
    constructor
    · rintro ⟨files, hfiles, rfl, hlanguage, hversion, hstdin⟩
      exact .object hfiles hlanguage hversion hstdin
    · intro h
      cases h with
      | object hfiles hlanguage hversion hstdin =>
        exact ⟨r.files, hfiles, rfl, hlanguage, hversion, hstdin⟩
  · rw [ofValue_of_not_object fun fields h => hobject ⟨fields, h⟩]
    refine ⟨nofun, fun h => ?_⟩
    cases h
    exact absurd ⟨_, rfl⟩ hobject

theorem ofValue_eq_error_iff {v : Value} {e : InputError} :
    ofValue v = .error e ↔ v.NoRequest e := by
  by_cases hobject : ∃ fields, v = .object fields
  · obtain ⟨fields, rfl⟩ := hobject
    have hfields : ∀ files, (ofFields fields files).mapError InputError.badField = .error e ↔
        ∃ bad, ofFields fields files = .error bad ∧ e = .badField bad := by
      intro files
      cases ofFields fields files <;> simp [mapError_ok, mapError_error, eq_comm]
    simp only [ofValue_object, bind_eq_error_iff, filesOfValue_lookup_eq_error_iff,
      filesOfValue_lookup_eq_ok_iff, hfields, ofFields_eq_error_iff]
    constructor
    · rintro (⟨v, hv, hbad⟩ | ⟨files, hfiles, bad, hfirst, rfl⟩)
      · exact .files hv hbad
      · exact .badField hfiles hfirst
    · intro h
      cases h with
      | notObject h => exact absurd rfl (h fields)
      | files hv hbad => exact Or.inl ⟨_, hv, hbad⟩
      | badField hfiles hfirst => exact Or.inr ⟨_, hfiles, _, hfirst, rfl⟩
  · have hnot : ∀ fields, v ≠ .object fields := fun fields h => hobject ⟨fields, h⟩
    rw [ofValue_of_not_object hnot]
    constructor
    · intro h
      cases h
      exact .notObject hnot
    · intro h
      cases h with
      | notObject => rfl
      | files | badField => exact absurd rfl (hnot _)

end Request

/-! ## Fields that are not asked for -/

namespace Value

/-- The values are the same as far as files are read from them: only names and contents count. -/
inductive SameFile : Value → Value → Prop where
  | same (v : Value) : SameFile v v
  | object {fields fields' : Fields} (hname : lookup fields "name" = lookup fields' "name")
      (hcontent : lookup fields "content" = lookup fields' "content") :
      SameFile (.object fields) (.object fields')

/-- The values are the same as far as lists of files are read from them. -/
inductive SameFiles : Value → Value → Prop where
  | same (v : Value) : SameFiles v v
  | list {items items' : List Value} (h : List.Forall₂ SameFile items items') :
      SameFiles (.list items) (.list items')

/-- The values are the same as far as requests are read from them. -/
inductive SameRequest : Value → Value → Prop where
  | same (v : Value) : SameRequest v v
  | object {fields fields' : Fields}
      (hfiles : SameFiles ((lookup fields "files").getD (.list []))
        ((lookup fields' "files").getD (.list [])))
      (hfields : ∀ name ∈ ["language", "version", "stdin"], lookup fields name =
        lookup fields' name) :
      SameRequest (.object fields) (.object fields')

end Value

theorem FileItem.file_eq_of_sameFile {v v' : Value} (h : v.SameFile v') :
    (FileItem.value v).file = (FileItem.value v').file := by
  cases h with
  | same => rfl
  | object hname hcontent =>
    simp only [FileItem.file, FileRecord.ofValue_object]
    unfold requireField
    rw [hname, hcontent]

theorem filesFrom_eq_of_sameFile {items items' : List Value} (position : Nat)
    (h : List.Forall₂ SameFile items items') :
    filesFrom position (items.map .value) = filesFrom position (items'.map .value) := by
  induction h generalizing position with
  | nil => rfl
  | cons hsame _ ih => simp only [List.map_cons, filesFrom, FileItem.file_eq_of_sameFile hsame, ih]

theorem filesOfValue_eq_of_sameFiles {v v' : Value} (h : v.SameFiles v') :
    filesOfValue v = filesOfValue v' := by
  cases h with
  | same => rfl
  | list h => exact filesFrom_eq_of_sameFile 0 h

theorem Request.ofValue_eq_of_sameRequest {v v' : Value} (h : v.SameRequest v') :
    Request.ofValue v = Request.ofValue v' := by
  cases h with
  | same => rfl
  | object hfiles hfields =>
    simp only [ofValue_object, ofFields_eq, filesOfValue_eq_of_sameFiles hfiles]
    unfold checkField
    rw [hfields "language" (by simp), hfields "version" (by simp), hfields "stdin" (by simp)]

/-! ## The checks and the forms -/

/-- **The checks accept exactly what has the right form.**  A list of files is accepted if it lists
records of files, and gives these in their order; a request is accepted if its files are and its
other fields are texts or, for two of them, null.  Any text will do, also one with unpaired
surrogates.  Otherwise the error is one of input.  It names the least position of a bad file and the
reason, for which the name is judged before the content; the fields of a request are judged behind
its files, in their order.  Other fields do not matter, and files that were checked are not refused
again. -/
theorem request_accepted_exactly (v : Value) :
    (∀ files, filesOfValue v = .ok files ↔ v.ListsFiles files) ∧
    (∀ e, filesOfValue v = .error e ↔ v.NoFiles e) ∧
    (∀ r, Request.ofValue v = .ok r ↔ v.Requests r) ∧
    (∀ e, Request.ofValue v = .error e ↔ v.NoRequest e) ∧
    ((∀ e : InputError, e.diagnostic.kind = .input) ∧
      (∀ position reason, (InputError.badFile position reason).diagnostic.message =
        "File #" ++ toString position ++ " is not a name/content record: " ++ reason.message) ∧
      ∀ name reason, (InputError.badField ⟨name, reason⟩).diagnostic.message =
        "Invalid request field '" ++ name ++ "': " ++ reason.message) ∧
    (∀ v', v.SameFiles v' → filesOfValue v' = filesOfValue v) ∧
    (∀ v', v.SameRequest v' → Request.ofValue v' = Request.ofValue v) ∧
    ∀ files, filesOfValue v = .ok files → filesFrom 0 (files.map .checked) = .ok files := by
  refine ⟨fun files => filesOfValue_eq_ok_iff, fun e => filesOfValue_eq_error_iff,
    fun r => Request.ofValue_eq_ok_iff, fun e => Request.ofValue_eq_error_iff, ⟨?_, ?_, ?_⟩, ?_, ?_,
    ?_⟩
  · intro e
    cases e <;> rfl
  · intro position reason
    rfl
  · intro name reason
    rfl
  · intro v' hsame
    exact (filesOfValue_eq_of_sameFiles hsame).symm
  · intro v' hsame
    exact (Request.ofValue_eq_of_sameRequest hsame).symm
  · intro files _
    exact filesFrom_checked files 0

/-- A request with a wrong content in its second file, a wrong version, and fields that nobody asks
for. -/
def faultyRequest : Value :=
  .object [("version", .bool true), ("id", .int 7),
    ("files",
      .list [.object [("size", .null), ("content", .text "int a;\n"), ("name", .text "a.h")],
      .object [("name", .text "b.c"), ("content", .int 1)], .null])]

/-- A request whose language and file name have unpaired surrogates. -/
def brokenRequest : Value :=
  .object [("language", .text (.ofPoints [.char 'c', .surrogate ⟨0, by decide⟩])),
    ("files", .list [.object [("name", .text (.ofPoints [.surrogate ⟨0x400, by decide⟩])),
      ("content", .text "")]])]

theorem request_accepted_exactly_faultyRequest :
    (Request.ofValue faultyRequest = .error (.badFile 1 .notText) ∧
      faultyRequest.NoRequest (.badFile 1 .notText) ∧ ¬ ∃ r, faultyRequest.Requests r) ∧
    ∃ r, Request.ofValue brokenRequest = .ok r ∧ brokenRequest.Requests r ∧
      r.language.isProper = false := by
  have herror : Request.ofValue faultyRequest = .error (.badFile 1 .notText) := by rfl
  obtain ⟨-, -, hok, hbad, -⟩ := request_accepted_exactly faultyRequest
  refine ⟨⟨herror, (hbad _).mp herror, ?_⟩, ?_⟩
  · rintro ⟨r, hr⟩
    cases herror.symm.trans ((hok r).mpr hr)
  · obtain ⟨-, -, hok, -⟩ := request_accepted_exactly brokenRequest
    exact ⟨_, rfl, (hok _).mp rfl, rfl⟩

end Amalgam
