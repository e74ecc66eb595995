import Amalgam.Proofs.DiskFrame
import Amalgam.Proofs.Encoding
import Amalgam.Proofs.FileRecords
import Amalgam.Proofs.RemoteFailure

/-!
# How `run` ends

`run` opens its sources, reads the file for standard input, makes a request, submits it and shows
the answer.  What goes wrong with the sources or is reported by the submission ends it with status 1
and a message.  The file for standard input and the answer are used as they come, so that a missing
file ends the program in a fault: `run_ends_cleanly_fails`.

* `StdinIs`, `StdinFails` — the text for standard input, or why there is none.
* `StdoutIs`, `StdoutFails` — what an answer puts out on standard output, or why that cannot be
  written.  Standard error takes every text.
* `AnswerEnds` — how `run` ends with an answer, for every value that the service can give.
* `RunEnds` — how `run` ends: at the first stage that fails, or with the answer.
* `run_command_ends` — the command ends in this way, and a status of 1 comes with a message.
-/

set_option autoImplicit false

namespace Amalgam

namespace Cli

/-! ## Standard input -/

/-- The text for standard input, if one is asked for. -/
inductive StdinIs (disk : Disk) (path : Option String) : Option String → Prop where
  | none (h : given path = none) : StdinIs disk path none
  | text {p s : String} (h : given path = some p) (hread : disk.read p = .ok (Utf8.encode s)) :
      StdinIs disk path (some (String.ofList (unifyNewlines s.toList)))

/-- Why there is no text for standard input. -/
inductive StdinFails (disk : Disk) (path : Option String) : Fault → Prop where
  | unopened {p : String} {e : OpenError} (h : given path = some p)
      (hread : disk.read p = .error e) : StdinFails disk path (.cannotOpen e)
  | undecodable {p : String} {bytes : List UInt8} {e : Utf8.Error} (h : given path = some p)
      (hread : disk.read p = .ok bytes) (hnone : ∀ s, bytes ≠ Utf8.encode s)
      (he : Utf8.readText bytes = .error e) :
      StdinFails disk path (.undecodable e)

theorem readStdin_eq_ok_iff {disk : Disk} {path text : Option String} :
    readStdin disk path = .ok text ↔ StdinIs disk path text := by
  unfold readStdin
  constructor
  · intro h
    cases hpath : given path with
    | none =>
      rw [hpath] at h
      cases h
      exact .none hpath
    | some p =>
      simp only [hpath] at h
      cases hread : disk.read p with
      | error e => simp [hread] at h
      | ok bytes =>
        simp only [hread] at h
        cases htext : Utf8.readText bytes with
        | error e => simp [htext] at h
        | ok read =>
          obtain ⟨s, rfl, rfl⟩ := Utf8.readText_eq_ok_iff.mp htext
          simp only [htext] at h
          cases h
          exact .text hpath hread
  · intro h
    cases h with
    | none hpath => rw [hpath]
    | @text p s hpath hread =>
      have htext : Utf8.readText (Utf8.encode s) = .ok _ :=
        Utf8.readText_eq_ok_iff.mpr ⟨s, rfl, rfl⟩
      simp only [hpath, hread, htext]

theorem readStdin_eq_error_iff {disk : Disk} {path : Option String} {f : Fault} :
    readStdin disk path = .error f ↔ StdinFails disk path f := by
  unfold readStdin
  constructor
  · intro h
    cases hpath : given path with
    | none => simp [hpath] at h
    | some p =>
      simp only [hpath] at h
      cases hread : disk.read p with
      | error e =>
        simp only [hread] at h
        cases h
        exact .unopened hpath hread
      | ok bytes =>
        simp only [hread] at h
        cases htext : Utf8.readText bytes with
        | ok read => simp [htext] at h
        | error e =>
          simp only [htext] at h
          cases h
          exact .undecodable hpath hread (Utf8.exists_readText_eq_error_iff.mp ⟨e, htext⟩) htext
  · intro h
    cases h with
    | unopened hpath hread => simp only [hpath, hread]
    | undecodable hpath hread _ he => simp only [hpath, hread, he]

/-! ## Answers -/

/-- What the program put out on a stream, as the answer has it. -/
inductive Output (fields : Fields) (name : String) : Option Text → Prop where
  | absent (h : Value.lookup fields name = none) : Output fields name none
  | empty {v : Value} (h : Value.lookup fields name = some v) (hv : v.isEmptyLike = true) :
      Output fields name none
  | text {t : Text} (h : Value.lookup fields name = some (.text t)) (hne : t.isEmpty = false) :
      Output fields name (some t)

/-- Why a field is no output. -/
inductive NoOutput (fields : Fields) (name : String) : Fault → Prop where
  | notText {v : Value} (h : Value.lookup fields name = some v) (hv : v.isEmptyLike = false)
      (hkind : ∀ t, v ≠ .text t) : NoOutput fields name (.notText v.kind)

theorem outputField_eq_ok_iff {fields : Fields} {name : String} {o : Option Text} :
    outputField fields name = .ok o ↔ Output fields name o := by
  unfold outputField
  constructor
  · intro h
    cases hlookup : Value.lookup fields name with
    | none =>
      rw [hlookup] at h
      cases h
      exact .absent hlookup
    | some v =>
      simp only [hlookup] at h
      split at h
      case isTrue hempty =>
        cases h
        exact .empty hlookup hempty
      case isFalse hfull =>
        cases v with
        | text t =>
          cases h
          exact .text hlookup (Bool.eq_false_iff.mpr hfull)
        | null | bool | int | real | list | object => cases h
  · intro h
    cases h with
    | absent h => rw [h]
    | empty h hv => simp only [h, hv, if_true]
    | text h hne => simp [h, Value.isEmptyLike, hne]

theorem outputField_eq_error_iff {fields : Fields} {name : String} {f : Fault} :
    outputField fields name = .error f ↔ NoOutput fields name f := by
  unfold outputField
  constructor
  · intro h
    cases hlookup : Value.lookup fields name with
    | none =>
      rw [hlookup] at h
      cases h
    | some v =>
      simp only [hlookup] at h
      split at h
      case isTrue hempty => cases h
      case isFalse hfull =>
        cases v with
        | text t => cases h
        | null | bool | int | real | list | object =>
          cases h
          exact .notText hlookup (Bool.eq_false_iff.mpr hfull) (by simp)
  · intro h
    cases h with
    | @notText v h hv hkind =>
      cases v with
      | text t => exact absurd rfl (hkind t)
      | null | bool | int | real | list | object => simp [h, hv]

/-- What is written to standard output. -/
inductive StdoutIs (fields : Fields) : Option String → Prop where
  | nothing (h : Output fields "stdout" none) : StdoutIs fields none
  | text {s : String} (h : Output fields "stdout" (some (.proper s))) : StdoutIs fields (some s)

/-- Why nothing can be written to standard output: the output is no text, or it has an unpaired
surrogate. -/
inductive StdoutFails (fields : Fields) : Fault → Prop where
  | notText {f : Fault} (h : NoOutput fields "stdout" f) : StdoutFails fields f
  | unpaired {points : List CodePoint} {hpoints : CodePoint.chars? points = none}
      (h : Output fields "stdout" (some (.broken points hpoints))) :
      StdoutFails fields (.unwritable (Text.firstSurrogates 0 points))

theorem stdoutIs_or_stdoutFails (fields : Fields) :
    (∃ out, StdoutIs fields out) ∨ ∃ f, StdoutFails fields f := by
  cases hfield : outputField fields "stdout" with
  | error f => exact Or.inr ⟨f, .notText (outputField_eq_error_iff.mp hfield)⟩
  | ok o =>
    have houtput := outputField_eq_ok_iff.mp hfield
    cases o with
    | none => exact Or.inl ⟨none, .nothing houtput⟩
    | some t =>
      cases t with
      | proper s => exact Or.inl ⟨some s, .text houtput⟩
      | broken points hpoints => exact Or.inr ⟨_, .unpaired houtput⟩

theorem StdoutIs.outputText_eq {fields : Fields} {out : Option String} (h : StdoutIs fields out) :
    outputText fields = .ok out := by
  unfold outputText
  cases h with
  | nothing h => rw [outputField_eq_ok_iff.mpr h]
  | text h =>
    rw [outputField_eq_ok_iff.mpr h]
    rfl

theorem StdoutFails.outputText_eq {fields : Fields} {f : Fault} (h : StdoutFails fields f) :
    outputText fields = .error f := by
  unfold outputText
  cases h with
  | notText h => rw [outputField_eq_error_iff.mpr h]
  | unpaired h =>
    rw [outputField_eq_ok_iff.mpr h]
    rfl

/-- All that is shown of an answer can be written.  Standard error takes any text. -/
structure Printable (fields : Fields) : Prop where
  stdout : ∃ out, StdoutIs fields out
  stderr : ∃ err, Output fields "stderr" err

/-- The status of an answer says that all went well, or nothing. -/
inductive Succeeds (fields : Fields) : Prop where
  | absent (h : Value.lookup fields "status" = none)
  | success (h : Value.lookup fields "status" = some (.text "success"))
  | unknown (h : Value.lookup fields "status" = some (.text "unknown"))

/-- How `run` ends with an answer. -/
inductive AnswerEnds : Value → Except Fault Nat → Prop where
  | notObject {v : Value} (h : ∀ fields, v ≠ .object fields) :
      AnswerEnds v (.error (.noFields v.kind))
  | badStdout {fields : Fields} {f : Fault} (h : StdoutFails fields f) :
      AnswerEnds (.object fields) (.error f)
  | badStderr {fields : Fields} {out : Option String} {f : Fault} (hout : StdoutIs fields out)
      (h : NoOutput fields "stderr" f) : AnswerEnds (.object fields) (.error f)
  | succeeded {fields : Fields} (h : Printable fields) (hstatus : Succeeds fields) :
      AnswerEnds (.object fields) (.ok 0)
  | failed {fields : Fields} (h : Printable fields) (hstatus : ¬ Succeeds fields) :
      AnswerEnds (.object fields) (.ok 1)

theorem exitCode_of_succeeds {fields : Fields} (h : Succeeds fields) : exitCode fields = 0 := by
  unfold exitCode statusOf
  cases h with
  | absent h | success h | unknown h => simp [h]

theorem exitCode_of_not_succeeds {fields : Fields} (h : ¬ Succeeds fields) :
    exitCode fields = 1 := by
  unfold exitCode statusOf
  cases hlookup : Value.lookup fields "status" with
  | none => exact absurd (.absent hlookup) h
  | some v =>
    cases v with
    | text t =>
      cases t with
      | broken points unpaired => rfl
      | proper s =>
        have hsuccess : s ≠ "success" := by
          rintro rfl
          exact h (.success hlookup)
        have hunknown : s ≠ "unknown" := by
          rintro rfl
          exact h (.unknown hlookup)
        simp [hsuccess, hunknown]
    | null | bool | int | real | list | object => rfl

/-- What can be written is shown, with the line about the status at the end. -/
theorem showResult_of_output {fields : Fields} {out : Option String} {err : Option Text}
    (hout : StdoutIs fields out) (herr : Output fields "stderr" err) :
    showResult (.object fields) = (.ok (exitCode fields), out.toList.map .out ++
      (err.toList ++ (problemLine? fields).toList).map .err ++ [.err (finishedLine fields)]) := by
  simp only [showResult, hout.outputText_eq, outputField_eq_ok_iff.mpr herr, List.map_append,
    List.map_cons, List.map_nil, List.append_assoc]

/-- **`run` ends with an answer in this way.** -/
theorem AnswerEnds.exit_eq {v : Value} {exit : Except Fault Nat} (h : AnswerEnds v exit) :
    (showResult v).1 = exit := by
  cases h with
  | notObject hv =>
    cases v with
    | object fields => exact absurd rfl (hv fields)
    | null | bool | int | real | text | list => rfl
  | badStdout h => simp only [showResult, h.outputText_eq]
  | badStderr hout h => simp only [showResult, hout.outputText_eq, outputField_eq_error_iff.mpr h]
  | succeeded h hstatus =>
    obtain ⟨⟨out, hout⟩, ⟨err, herr⟩⟩ := h
    rw [showResult_of_output hout herr, exitCode_of_succeeds hstatus]
  | failed h hstatus =>
    obtain ⟨⟨out, hout⟩, ⟨err, herr⟩⟩ := h
    rw [showResult_of_output hout herr, exitCode_of_not_succeeds hstatus]

/-- An answer that can be shown in full ends the run with status 0 or 1. -/
theorem Printable.exists_answerEnds {fields : Fields} (h : Printable fields) :
    ∃ code, AnswerEnds (.object fields) (.ok code) := by
  by_cases hstatus : Succeeds fields
  · exact ⟨0, .succeeded h hstatus⟩
  · exact ⟨1, .failed h hstatus⟩

/-- Every answer ends the run in one of these ways. -/
theorem exists_answerEnds (v : Value) : ∃ exit, AnswerEnds v exit := by
  by_cases hobject : ∃ fields, v = .object fields
  · obtain ⟨fields, rfl⟩ := hobject
    rcases stdoutIs_or_stdoutFails fields with ⟨out, hout⟩ | ⟨f, hout⟩
    · cases herr : outputField fields "stderr" with
      | error f => exact ⟨_, .badStderr hout (outputField_eq_error_iff.mp herr)⟩
      | ok err =>
        obtain ⟨code, hends⟩ :=
          Printable.exists_answerEnds ⟨⟨out, hout⟩, ⟨err, outputField_eq_ok_iff.mp herr⟩⟩
        exact ⟨_, hends⟩
    · exact ⟨_, .badStdout hout⟩
  · exact ⟨_, .notObject fun fields hv => hobject ⟨fields, hv⟩⟩

theorem showResult_eq_iff {v : Value} {exit : Except Fault Nat} :
    (showResult v).1 = exit ↔ AnswerEnds v exit := by
  constructor
  · rintro rfl
    obtain ⟨exit, hends⟩ := exists_answerEnds v
    rw [hends.exit_eq]
    exact hends
  · exact AnswerEnds.exit_eq

/-! ## The command -/

/-- The request that `run` makes of its arguments. -/
inductive Asks (w : World) (paths : List String) (lang : Option String) (version : Option Argument)
    (stdin : Option String) : Request → Prop where
  | intro {files : List TextFile} {tag : String} {text : Option String}
      (hsources : sourcesAndLanguage w.disk paths lang = .ok (files, tag))
      (hstdin : StdinIs w.disk stdin text) (hversion : version ≠ some .nothing) :
      Asks w paths lang version stdin
        ⟨tag, (version.bind Argument.text?).map Text.proper, text.map .proper,
          files.map TextFile.record⟩

/-- The submission of a request. -/
def submitted (w : World) (r : Request) : Run Call := w.submitTo none w.service r

/-- How `run` ends: at the first stage that fails, or with the answer. -/
inductive RunEnds (w : World) (paths : List String) (lang : Option String)
    (version : Option Argument) (stdin : Option String) : Except Fault Nat → Prop where
  | noSources (h : NoSources w.disk paths lang) : RunEnds w paths lang version stdin (.ok 1)
  | noStdin {found : List TextFile × String} {f : Fault}
      (hsources : sourcesAndLanguage w.disk paths lang = .ok found)
      (h : StdinFails w.disk stdin f) : RunEnds w paths lang version stdin (.error f)
  | noVersion {found : List TextFile × String} {text : Option String}
      (hsources : sourcesAndLanguage w.disk paths lang = .ok found)
      (hstdin : StdinIs w.disk stdin text) (h : version = some .nothing) :
      RunEnds w paths lang version stdin (.error .noVersion)
  | reported {r : Request} {e : Failure} {d : Diagnostic} (hr : Asks w paths lang version stdin r)
      (h : (submitted w r).result = .error e) (hd : e.diagnostic? = some d) :
      RunEnds w paths lang version stdin (.ok 1)
  | escaped {r : Request} {f : Fault} (hr : Asks w paths lang version stdin r)
      (h : (submitted w r).result = .error (.fault f)) :
      RunEnds w paths lang version stdin (.error f)
  | answered {r : Request} {v : Value} {exit : Except Fault Nat}
      (hr : Asks w paths lang version stdin r) (h : (submitted w r).result = .ok v)
      (hv : AnswerEnds v exit) : RunEnds w paths lang version stdin exit

/-- Why sources are not opened: at one of the paths there is no file. -/
theorem exists_missing_of_openSources {disk : Disk} {paths : List String} {path : String}
    (h : openSources disk paths = .error path) : path ∈ paths ∧ ∃ e, disk.read path = .error e := by
  induction paths with
  | nil => cases h
  | cons p paths ih =>
    rw [openSources] at h
    cases hread : disk.read p with
    | error e =>
      simp only [hread] at h
      cases h
      exact ⟨List.mem_cons_self, e, hread⟩
    | ok bytes =>
      simp only [hread] at h
      cases hrest : openSources disk paths with
      | ok files => rw [hrest] at h; cases h
      | error first =>
        rw [hrest] at h
        cases h
        obtain ⟨hmem, hmissing⟩ := ih hrest
        exact ⟨List.mem_cons_of_mem p hmem, hmissing⟩

/-- Without sources there is a message. -/
theorem sourcesAndLanguage_cases (disk : Disk) (paths : List String) (lang : Option String) :
    (∃ found, sourcesAndLanguage disk paths lang = .ok found) ∨
      (NoSources disk paths lang ∧
        ∃ message, sourcesAndLanguage disk paths lang = .error ("Error: " ++ message ++ "\n")) := by
  unfold sourcesAndLanguage
  cases hopen : openSources disk paths with
  | error path =>
    obtain ⟨hmem, hmissing⟩ := exists_missing_of_openSources hopen
    refine Or.inr ⟨Or.inl ⟨path, hmem, hmissing⟩, "File '" ++ path ++ "' not found.", ?_⟩
    have hfront : "Error: File '" = "Error: " ++ "File '" := by decide
    have hback : "' not found.\n" = "' not found." ++ "\n" := by decide
    simp only [hfront, hback, String.append_assoc]
  | ok files =>
    cases hlang : languageFor lang files with
    | some tag => exact Or.inl ⟨(files, tag), by simp only [hlang]⟩
    | none =>
      refine Or.inr ⟨Or.inr ⟨files, hopen, hlang⟩,
        "Cannot infer the language from file extensions; pass --lang.", ?_⟩
      have htext : "Error: Cannot infer the language from file extensions; pass --lang.\n" =
          "Error: " ++ "Cannot infer the language from file extensions; pass --lang." ++ "\n" := by
        decide
      simp only [hlang, htext]

section Command

variable {w : World} {verbose : Bool} {paths : List String} {lang : Option String}
  {version : Option Argument} {stdin : Option String}

theorem NoSources.runRemote_eq (h : NoSources w.disk paths lang) :
    ∃ message, runRemote w verbose paths lang version stdin =
      ⟨.ok 1, [.err ("Error: " ++ message ++ "\n" : String)], w.disk⟩ := by
  rcases sourcesAndLanguage_cases w.disk paths lang with ⟨found, hfound⟩ | ⟨-, message, hmessage⟩
  · exact absurd hfound h.not_ok
  · exact ⟨message, by simp only [runRemote, hmessage]⟩

theorem exit_runRemote_of_stdinFails {found : List TextFile × String} {f : Fault}
    (hsources : sourcesAndLanguage w.disk paths lang = .ok found) (h : StdinFails w.disk stdin f) :
    (runRemote w verbose paths lang version stdin).exit = .error f := by
  simp only [runRemote, hsources, readStdin_eq_error_iff.mpr h]

theorem exit_runRemote_of_noVersion {found : List TextFile × String} {text : Option String}
    (hsources : sourcesAndLanguage w.disk paths lang = .ok found) (h : StdinIs w.disk stdin text) :
    (runRemote w verbose paths lang (some .nothing) stdin).exit = .error .noVersion := by
  simp only [runRemote, hsources, readStdin_eq_ok_iff.mpr h]

/-- A request is submitted, and what comes of it is shown. -/
theorem Asks.runRemote_eq {r : Request} (hr : Asks w paths lang version stdin r) :
    runRemote w verbose paths lang version stdin =
      match (submitted w r).result with
      | .error e => .failed w.disk ((submitted w r).effects verbose) e
      | .ok v => ⟨(showResult v).1, (submitted w r).effects verbose ++ (showResult v).2,
        w.disk⟩ := by
  cases hr with
  | intro hsources hstdin hversion =>
    have hread := readStdin_eq_ok_iff.mpr hstdin
    cases version with
    | none =>
      simp only [runRemote, hsources, hread]
      rfl
    | some argument =>
      cases argument with
      | nothing => exact absurd rfl hversion
      | text s =>
        simp only [runRemote, hsources, hread]
        rfl

/-- A failure with a report ends in status 1, and the report comes last. -/
theorem failed_of_diagnostic {disk : Disk} {before : List Effect} {e : Failure} {d : Diagnostic}
    (h : e.diagnostic? = some d) :
    Outcome.failed disk before e = ⟨.ok 1, before ++ [.err (report d)], disk⟩ := by
  cases e with
  | fault f => cases h
  | input e | settings e | remote e =>
    cases h
    rfl

/-- **`run` ends in this way.** -/
theorem RunEnds.exit_eq {exit : Except Fault Nat} (h : RunEnds w paths lang version stdin exit) :
    (runRemote w verbose paths lang version stdin).exit = exit := by
  cases h with
  | noSources h =>
    obtain ⟨message, heq⟩ := h.runRemote_eq
    rw [heq]
  | noStdin hsources h => exact exit_runRemote_of_stdinFails hsources h
  | noVersion hsources hstdin h =>
    rw [h]
    exact exit_runRemote_of_noVersion hsources hstdin
  | reported hr h hd =>
    rw [hr.runRemote_eq, h]
    simp only [failed_of_diagnostic hd]
  | escaped hr h =>
    rw [hr.runRemote_eq, h]
    rfl
  | answered hr h hv =>
    rw [hr.runRemote_eq, h]
    exact hv.exit_eq

/-- A request ends the run with a report, a fault or an answer. -/
theorem Asks.exists_runEnds {r : Request} (hr : Asks w paths lang version stdin r) :
    ∃ exit, RunEnds w paths lang version stdin exit := by
  cases hanswer : (submitted w r).result with
  | ok v =>
    obtain ⟨exit, hends⟩ := exists_answerEnds v
    exact ⟨exit, .answered hr hanswer hends⟩
  | error e =>
    cases hd : e.diagnostic? with
    | some d => exact ⟨.ok 1, .reported hr hanswer hd⟩
    | none =>
      cases e with
      | fault f => exact ⟨.error f, .escaped hr hanswer⟩
      | input | settings | remote => cases hd

theorem exists_runEnds (w : World) (paths : List String) (lang : Option String)
    (version : Option Argument) (stdin : Option String) :
    ∃ exit, RunEnds w paths lang version stdin exit := by
  rcases sourcesAndLanguage_cases w.disk paths lang with ⟨⟨files, tag⟩, hsources⟩ | ⟨hnone, -⟩
  · cases hread : readStdin w.disk stdin with
    | error f => exact ⟨.error f, .noStdin hsources (readStdin_eq_error_iff.mp hread)⟩
    | ok text =>
      have hstdin := readStdin_eq_ok_iff.mp hread
      by_cases hversion : version = some .nothing
      · exact ⟨.error .noVersion, .noVersion hsources hstdin hversion⟩
      · exact Asks.exists_runEnds (.intro hsources hstdin hversion)
  · exact ⟨.ok 1, .noSources hnone⟩

theorem exit_runRemote_eq_iff {exit : Except Fault Nat} :
    (runRemote w verbose paths lang version stdin).exit = exit ↔
      RunEnds w paths lang version stdin exit := by
  constructor
  · rintro rfl
    obtain ⟨exit, hends⟩ := exists_runEnds w paths lang version stdin
    rw [hends.exit_eq]
    exact hends
  · exact RunEnds.exit_eq

/-- The beginning of the line that ends a run. -/
def finishedLabel : String := Notice.label .info ++ "Remote run finished: "

theorem display_finishedLine (fields : Fields) :
    (finishedLine fields).display = finishedLabel ++ (statusOf fields).toText.display ++ "\n" := by
  rw [finishedLine, Notice.render, Text.display_append, Text.display_append, Text.display_append]
  rfl

/-- What is said last on standard error stands at its end. -/
theorem stderr_append_err (exit : Except Fault Nat) (before : List Effect) (text : Text)
    (disk : Disk) :
    ∃ said, (⟨exit, before ++ [.err text], disk⟩ : Outcome).stderr = said ++ text.display :=
  ⟨String.join (before.filterMap Effect.err?),
    by simp [Outcome.stderr, Effect.err?, String.join_append]⟩

/-- Something was said on standard error: an error, or how the remote run has finished. -/
inductive Outcome.Says (o : Outcome) : Prop where
  | error {before message : String} (h : o.stderr = before ++ ("Error: " ++ message ++ "\n"))
  | finished {before message : String} (h : o.stderr = before ++ (finishedLabel ++ message ++ "\n"))

/-- A status of 1 comes with a message. -/
theorem RunEnds.tells (h : RunEnds w paths lang version stdin (.ok 1)) :
    (runRemote w verbose paths lang version stdin).Says := by
  cases h with
  | noSources h =>
    obtain ⟨message, heq⟩ := h.runRemote_eq
    rw [heq]
    obtain ⟨before, hstderr⟩ :=
      stderr_append_err (.ok 1) [] ("Error: " ++ message ++ "\n" : String) w.disk
    exact .error hstderr
  | reported hr h hd =>
    rw [hr.runRemote_eq, h]
    simp only [failed_of_diagnostic hd]
    obtain ⟨before, hstderr⟩ :=
      stderr_append_err (.ok 1) ((submitted w _).effects verbose) (report _) w.disk
    exact .error hstderr
  | answered hr h hv =>
    rw [hr.runRemote_eq, h]
    cases hv with
    | failed hprintable hstatus =>
      obtain ⟨⟨out, hout⟩, ⟨err, herr⟩⟩ := hprintable
      simp only [showResult_of_output hout herr, ← List.append_assoc]
      obtain ⟨before, hstderr⟩ := stderr_append_err _ _ (finishedLine _) w.disk
      rw [display_finishedLine] at hstderr
      exact .finished hstderr

theorem AnswerEnds.code_le {v : Value} {code : Nat} (h : AnswerEnds v (.ok code)) :
    code = 0 ∨ code = 1 := by
  cases h with
  | succeeded => exact Or.inl rfl
  | failed => exact Or.inr rfl

theorem RunEnds.code_le {code : Nat} (h : RunEnds w paths lang version stdin (.ok code)) :
    code = 0 ∨ code = 1 := by
  cases h with
  | noSources | reported => exact Or.inr rfl
  | answered _ _ hv => exact hv.code_le

end Command

/-- An answer is shown in full exactly if it is an object whose fields can be written. -/
theorem exists_answerEnds_ok_iff {v : Value} :
    (∃ code, AnswerEnds v (.ok code)) ↔ ∃ fields, v = .object fields ∧ Printable fields := by
  constructor
  · rintro ⟨code, h⟩
    cases h with
    | succeeded h | failed h => exact ⟨_, rfl, h⟩
  · rintro ⟨fields, rfl, h⟩
    exact h.exists_answerEnds

/-- **`run` ends with status 0, with status 1 after a message, or with a fault.**  Which of these it
is, `RunEnds` says for every command line, every disk and everything that comes of the submission.
An answer can be shown exactly if it is an object, its standard output is text without unpaired
surrogates and its standard error is text; its exception and its status may be any value.  A file
for standard input that cannot be opened or is no text always ends in a fault. -/
theorem run_command_ends (w : World) (args : List String) (verbose : Bool) (paths : List String)
    (lang : Option String) (version : Option Argument) (stdin : Option String)
    (hread : readInvocation args = .ok ⟨verbose, .run paths lang version stdin⟩) :
    (∀ exit, (invoke w args).exit = exit ↔ RunEnds w paths lang version stdin exit) ∧
    (∀ code, (invoke w args).exit = .ok code → code = 0 ∨ code = 1) ∧
    ((invoke w args).exit = .ok 1 → (invoke w args).Says) ∧
    ∀ r v, Asks w paths lang version stdin r → (submitted w r).result = .ok v →
      ((∃ code, (invoke w args).exit = .ok code) ↔
        ∃ fields, v = .object fields ∧ Printable fields) := by
  have hinvoke : invoke w args = runRemote w verbose paths lang version stdin := by
    simp [invoke, hread]
  rw [hinvoke]
  refine ⟨fun exit => exit_runRemote_eq_iff, fun code h => (exit_runRemote_eq_iff.mp h).code_le,
    fun h => (exit_runRemote_eq_iff.mp h).tells, fun r v hr hv => ?_⟩
  rw [hr.runRemote_eq, hv]
  simp only [showResult_eq_iff]
  exact exists_answerEnds_ok_iff

/-- The same two files, and a service that answers with this text. -/
def answeringWorld (body : String) : World :=
  { twoFileWorld with transport := fun _ => .response 200 body, depths := ⟨2, 2, 33⟩ }

/-- An answer whose exception and status are no texts. -/
def oddAnswer : String := "\x7b\"stdout\": \"1\\n\", \"exception\": [2], \"status\": 3\x7d"

/-- An answer that all went well, with an unpaired surrogate on this stream. -/
def surrogateOn (stream : String) : String :=
  "\x7b\"" ++ stream ++ "\": \"\\ud800\", \"status\": \"success\"\x7d"

theorem run_command_ends_oddAnswer :
    readInvocation runFiles = .ok ⟨false, .run ["main.c", "a.h"] (some " C") none none⟩ ∧
      RunEnds (answeringWorld oddAnswer) ["main.c", "a.h"] (some " C") none none (.ok 1) ∧
      (invoke (answeringWorld oddAnswer) runFiles).Says ∧
      RunEnds (answeringWorld (surrogateOn "stderr")) ["main.c", "a.h"] (some " C") none none
        (.ok 0) ∧
      (∃ f, RunEnds (answeringWorld (surrogateOn "stdout")) ["main.c", "a.h"] (some " C") none none
        (.error f)) ∧
      ∃ f, RunEnds (answeringWorld "[]") ["main.c", "a.h"] (some " C") none none (.error f) := by
  have hread : readInvocation runFiles =
      .ok ⟨false, .run ["main.c", "a.h"] (some " C") none none⟩ := by rfl
  obtain ⟨hodd, -, hsays, -⟩ := run_command_ends (answeringWorld oddAnswer) runFiles _ _ _ _ _ hread
  have hone : (invoke (answeringWorld oddAnswer) runFiles).exit = .ok 1 :=
    eq_ok_of_toOption (by decide +kernel)
  have hends body := (run_command_ends (answeringWorld body) runFiles _ _ _ _ _ hread).1
  have hfault {body} (h : (invoke (answeringWorld body) runFiles).exit.toOption = none) :
      ∃ f, RunEnds (answeringWorld body) ["main.c", "a.h"] (some " C") none none (.error f) := by
    cases hexit : (invoke (answeringWorld body) runFiles).exit with
    | ok code => rw [hexit] at h; cases h
    | error f => exact ⟨f, (hends body _).mp hexit⟩
  exact ⟨hread, (hodd _).mp hone, hsays hone,
    (hends _ _).mp (eq_ok_of_toOption (by decide +kernel)),
    hfault (by decide +kernel), hfault (by decide +kernel)⟩

/-- The file for standard input is not there. -/
def runWithoutInput : List String := ["run", "--stdin", "in.txt", "main.c", "a.h"]

/-- Not every run ends with a status: a missing file for standard input ends the program as it
is. -/
theorem run_ends_cleanly_fails :
    ¬ ∀ (w : World) (args : List String) (verbose : Bool) (paths : List String)
      (lang : Option String)
        (version : Option Argument) (stdin : Option String),
      readInvocation args = .ok ⟨verbose, .run paths lang version stdin⟩ →
        ∃ code, (invoke w args).exit = .ok code := by
  intro hall
  have hread : readInvocation runWithoutInput =
      .ok ⟨false, .run ["main.c", "a.h"] none none (some "in.txt")⟩ := by rfl
  have hfault : (invoke twoFileWorld runWithoutInput).exit =
      .error (.cannotOpen ⟨.missing, "in.txt"⟩) := by rfl
  obtain ⟨code, hcode⟩ := hall twoFileWorld runWithoutInput _ _ _ _ _ hread
  cases hfault.symm.trans hcode

end Cli

end Amalgam
