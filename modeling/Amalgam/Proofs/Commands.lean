import Amalgam.Cli.Command
import Amalgam.Proofs.DiskWrite
import Amalgam.Proofs.LanguageTag
import Amalgam.Proofs.Submission

/-!
# The two commands agree

`bundle` prepares files and writes them, `run` makes a request of them, from which a payload is made
and posted.  Both come to the same files in the same language: a tag stays the same however often it
is made again, and both read the same settings.

* `recordsToSend_map_record` — files are prepared in the same way on their own and as the files of a
  request.
* `BundleEnds` — how `bundle` ends: at the first stage that fails, or with its text put out.
* `runBundle_wrote`, `runRemote_posted` — what a command that ends well has written, and what is in
  a call that was made.
* `bundle_writes_what_run_posts` — the text that `bundle` writes is that of the files that `run`
  posts.
-/

set_option autoImplicit false

namespace Amalgam

/-! ## Files in a language -/

theorem filesToSend_tag (s : Spelling) (language : String) (files : List TextFile) (limit : Int) :
    filesToSend s (Language.tag language) files limit = filesToSend s language files limit := by
  unfold filesToSend
  rw [Language.tag_tag]

theorem recordsToSend_tag (language : String) (records : List FileRecord) (limit : Int) :
    recordsToSend (Language.tag language) records limit = recordsToSend language records limit := by
  unfold recordsToSend
  simp only [filesToSend_tag]

/-- Files are prepared in the same way on their own and as the files of a request. -/
theorem recordsToSend_map_record (language : String) (files : List TextFile) (limit : Int) :
    (recordsToSend language (files.map TextFile.record) limit).value =
      (filesToSend .plain language files limit).value.map TextFile.record := by
  simp only [recordsToSend, FileRecord.spelling_map_record, FileRecord.map_file_record]
  exact FileRecord.map_plain_record _

theorem Language.tagOfText_proper (name : String) : tagOfText (.proper name) = .proper (tag name) :=
  rfl

/-- The contents of the files in a payload. -/
def contents? (payload : Value) : Option (List String) :=
  match payload.field? "files" with
  | some (.list files) =>
    files.mapM fun file =>
      match file.field? "content" with
      | some (.text (.proper content)) => some content
      | _ => none
  | _ => none

namespace Request

theorem field?_language_payload (r : Request) (settings : Settings) :
    (r.payload settings).value.field? "language" = some (.text (Language.tagOfText r.language)) :=
  rfl

theorem field?_files_payload (r : Request) (settings : Settings) :
    (r.payload settings).value.field? "files" =
      some (.list ((recordsToSend r.language.display r.files settings.includeLimit).value.map
        FileRecord.toValue)) := by
  rw [← recordsToSend_tag]
  rfl

theorem contents?_payload {r : Request} {files : List TextFile}
    (h : r.files = files.map TextFile.record) (settings : Settings) :
    contents? (r.payload settings).value =
      some ((filesToSend .plain r.language.display files settings.includeLimit).value.map
        (·.content)) := by
  rw [contents?, field?_files_payload, h, recordsToSend_map_record]
  generalize (filesToSend .plain r.language.display files settings.includeLimit).value = sent
  simp only
  induction sent with
  | nil => rfl
  | cons file files ih =>
    have hcontent : file.record.toValue.field? "content" = some (.text (.proper file.content)) :=
      rfl
    rw [List.map_cons, List.map_cons, List.mapM_cons, ih]
    simp [hcontent]

end Request

namespace Cli

/-! ## Preparing files -/

/-- The language of files is a tag. -/
theorem tag_languageFor {lang : Option String} {files : List TextFile} {tag : String}
    (h : languageFor lang files = some tag) : Language.tag tag = tag := by
  have hknown : ∀ known ∈ ["c", "cpp"], Language.tag known = known := by decide +kernel
  unfold languageFor at h
  split at h
  · obtain rfl := Option.some.inj h
    exact Language.tag_tag _
  · -- a language that is guessed is one of two
    refine hknown tag ?_
    unfold Language.guess at h
    simp only at h
    split at h
    · simp_all
    · split at h
      · simp_all
      · split at h
        · simp_all
        · cases h

theorem tag_of_sourcesAndLanguage {disk : Disk} {paths : List String} {lang : Option String}
    {files : List TextFile} {tag : String}
    (h : sourcesAndLanguage disk paths lang = .ok (files, tag)) :
    Language.tag tag = tag := by
  unfold sourcesAndLanguage at h
  split at h
  · cases h
  · rename_i sources _
    cases hlang : languageFor lang sources with
    | none =>
      rw [hlang] at h
      cases h
    | some found =>
      rw [hlang] at h
      obtain ⟨-, rfl⟩ := Prod.mk.inj (Except.ok.inj h)
      exact tag_languageFor hlang

/-! ## What the commands leave behind -/

/-- The text was written: to standard output, or to the file that was named. -/
def Outcome.Wrote (o : Outcome) (output : Option String) (text : String) : Prop :=
  match given output with
  | none => o.stdout = text
  | some path => o.disk.read path = .ok (Utf8.encode text)

theorem exit_failed_ne_zero (disk : Disk) (before : List Effect) (e : Failure) :
    (Outcome.failed disk before e).exit ≠ .ok 0 := by
  cases e <;> simp [Outcome.failed]

theorem disk_failed (disk : Disk) (before : List Effect) (e : Failure) :
    (Outcome.failed disk before e).disk = disk := by
  cases e <;> rfl

theorem calls_failed (disk : Disk) (before : List Effect) (e : Failure) :
    (Outcome.failed disk before e).calls = before.filterMap Effect.call? := by
  cases e <;> simp [Outcome.failed, Outcome.calls, Effect.call?]

/-- The text that `bundle` puts out for files in a language. -/
def bundledText (tag : String) (files : List TextFile) (limit : Int) : String :=
  joinedText (filesToSend .plain tag files limit).value

/-- How `bundle` ends: at the first stage that fails, or with its text put out. -/
inductive BundleEnds (w : World) (paths : List String) (lang output : Option String) (o : Outcome) :
    Prop where
  | noSources {text : String} (hsources : sourcesAndLanguage w.disk paths lang = .error text)
      (hexit : o.exit = .ok 1) (hdisk : o.disk = w.disk)
  | unsettled {files : List TextFile} {tag : String} {e : Failure}
      (hsources : sourcesAndLanguage w.disk paths lang = .ok (files, tag))
      (hsettings : (w.settings none).value = .error e) (hexit : o.exit ≠ .ok 0)
      (hdisk : o.disk = w.disk)
  | nested {files : List TextFile} {tag : String} {settings : Settings}
      (hsources : sourcesAndLanguage w.disk paths lang = .ok (files, tag))
      (hsettings : (w.settings none).value = .ok settings)
      (hdeep : ¬ NestWithin w.depths.headers tag files settings.includeLimit)
      (hexit : o.exit = .error .nestedTooDeep) (hdisk : o.disk = w.disk)
  | printed {files : List TextFile} {tag : String} {settings : Settings}
      (hsources : sourcesAndLanguage w.disk paths lang = .ok (files, tag))
      (hsettings : (w.settings none).value = .ok settings) (houtput : given output = none)
      (hexit : o.exit = .ok 0) (hstdout : o.stdout = bundledText tag files settings.includeLimit)
      (hdisk : o.disk = w.disk)
  | unopened {files : List TextFile} {tag : String} {settings : Settings} {path : String}
      {e : OpenError} (hsources : sourcesAndLanguage w.disk paths lang = .ok (files, tag))
      (hsettings : (w.settings none).value = .ok settings) (houtput : given output = some path)
      (hwrite : w.disk.write path (Utf8.encode (bundledText tag files settings.includeLimit)) =
        .error e)
      (hexit : o.exit = .error (.cannotOpen e)) (hdisk : o.disk = w.disk)
  | wrote {files : List TextFile} {tag : String} {settings : Settings} {path : String}
      (hsources : sourcesAndLanguage w.disk paths lang = .ok (files, tag))
      (hsettings : (w.settings none).value = .ok settings) (houtput : given output = some path)
      (hwrite : w.disk.write path (Utf8.encode (bundledText tag files settings.includeLimit)) =
        .ok o.disk)
      (hexit : o.exit = .ok 0)

/-- Nothing but a text that comes behind notices is on standard output. -/
theorem stdout_telling_append (exit : Except Fault Nat) (verbose : Bool)
    (notices more : List Notice) (text : String) (disk : Disk) :
    (⟨exit, Effect.telling verbose notices ++ Effect.telling verbose more ++ [.out text], disk⟩ :
      Outcome).stdout = text := by
  have htold : ∀ told, (Effect.telling verbose told).filterMap Effect.out? = [] :=
    fun _ => Effect.filterMap_map_eq_nil (fun _ => rfl) _
  simp [Outcome.stdout, htold, Effect.out?]

section FilesWithin

variable {levels : Nat} {s : Spelling} {language : String} {files : List TextFile} {limit : Int}

theorem filesWithin_of_nestWithin (h : NestWithin levels language files limit) :
    filesWithin levels s language files limit =
      ⟨.ok (filesToSend s language files limit).value,
        (filesToSend s language files limit).notices⟩ := by
  rw [filesWithin, unlessBeyond_of_nestWithin h]

theorem filesWithin_of_not_nestWithin (h : ¬ NestWithin levels language files limit) :
    ∃ notices, filesWithin levels s language files limit = ⟨.error .nestedTooDeep, notices⟩ := by
  unfold filesWithin
  exact unlessBeyond_of_not_nestWithin h s (filesToSend s language files limit)

end FilesWithin

/-- **`bundle` reads everything before it writes anything.** -/
theorem bundleEnds_runBundle (w : World) (verbose : Bool) (paths : List String)
    (lang output : Option String) :
    BundleEnds w paths lang output (runBundle w verbose paths lang output) := by
  unfold runBundle
  cases hsources : sourcesAndLanguage w.disk paths lang with
  | error text => exact .noSources hsources rfl rfl
  | ok found =>
    obtain ⟨files, tag⟩ := found
    simp only
    cases hsettings : (w.settings none).value with
    | error e => exact .unsettled hsources hsettings (exit_failed_ne_zero _ _ e) (disk_failed _ _ e)
    | ok settings =>
      by_cases hfits : NestWithin w.depths.headers tag files settings.includeLimit
      · simp only [filesWithin_of_nestWithin hfits]
        -- the text gets a name, or else it would be unfolded and with it the whole bundling
        generalize htext : joinedText (filesToSend .plain tag files settings.includeLimit).value =
          text
        change bundledText tag files settings.includeLimit = text at htext
        cases houtput : given output with
        | none =>
          exact .printed hsources hsettings houtput rfl
            ((stdout_telling_append ..).trans htext.symm) rfl
        | some path =>
          simp only
          cases hwrite : w.disk.write path (Utf8.encode text) with
          | error e => exact .unopened hsources hsettings houtput (htext ▸ hwrite) rfl rfl
          | ok disk => exact .wrote hsources hsettings houtput (htext ▸ hwrite) rfl
      · obtain ⟨notices, hbuilt⟩ := @filesWithin_of_not_nestWithin _ .plain _ _ _ hfits
        simp only [hbuilt]
        exact .nested hsources hsettings hfits rfl rfl

/-- What `bundle` has written when it ends well. -/
theorem runBundle_wrote {w : World} {verbose : Bool} {paths : List String}
    {lang output : Option String} (h : (runBundle w verbose paths lang output).exit = .ok 0) :
    ∃ files tag settings, sourcesAndLanguage w.disk paths lang = .ok (files, tag) ∧
      (w.settings none).value = .ok settings ∧
      (runBundle w verbose paths lang output).Wrote output
        (bundledText tag files settings.includeLimit) := by
  cases bundleEnds_runBundle w verbose paths lang output with
  | noSources _ hexit => cases hexit.symm.trans h
  | unsettled _ _ hexit => exact absurd h hexit
  | nested _ _ _ hexit => cases hexit.symm.trans h
  | unopened _ _ _ _ hexit => cases hexit.symm.trans h
  | printed hsources hsettings houtput _ hstdout =>
    refine ⟨_, _, _, hsources, hsettings, ?_⟩
    simp only [Outcome.Wrote, houtput]
    exact hstdout
  | wrote hsources hsettings houtput hwrite =>
    refine ⟨_, _, _, hsources, hsettings, ?_⟩
    simp only [Outcome.Wrote, houtput]
    exact Disk.read_write hwrite

/-- Showing a result makes no call. -/
theorem filterMap_call?_showResult (v : Value) : (showResult v).2.filterMap Effect.call? = [] := by
  have hlines : ∀ lines : List Text, (lines.map Effect.err).filterMap Effect.call? = [] :=
    Effect.filterMap_map_eq_nil fun _ => rfl
  have hout : ∀ out : Option String, (out.toList.map Effect.out).filterMap Effect.call? = [] :=
    fun out => Effect.filterMap_map_eq_nil (fun _ => rfl) out.toList
  unfold showResult
  cases v with
  | null | bool | int | real | text | list => rfl
  | object fields =>
    dsimp only
    cases outputText fields with
    | error f => rfl
    | ok out =>
      dsimp only
      cases outputField fields "stderr" with
      | error f => exact hout out
      | ok err =>
        dsimp only
        rw [List.filterMap_append, hout, hlines]
        rfl

/-- What is in a call that `run` has made. -/
theorem runRemote_posted {w : World} {verbose : Bool} {paths : List String} {lang : Option String}
    {version : Option Argument} {stdin : Option String} {c : Call}
    (h : c ∈ (runRemote w verbose paths lang version stdin).calls) :
    ∃ files tag settings r, sourcesAndLanguage w.disk paths lang = .ok (files, tag) ∧
      (w.settings none).value = .ok settings ∧ r.language = .proper tag ∧
      r.files = files.map TextFile.record ∧
      c.payload = (Request.payload r settings).value := by
  unfold runRemote at h
  cases hsources : sourcesAndLanguage w.disk paths lang with
  | error text =>
    rw [hsources] at h
    cases h
  | ok found =>
    obtain ⟨files, tag⟩ := found
    simp only [hsources] at h
    split at h
    · cases h
    · cases h
    · rename_i version _ _ text _ _
      have hcall : c ∈
          (w.submitTo none w.service ⟨tag, (version.bind Argument.text?).map Text.proper,
          text.map .proper, files.map TextFile.record⟩).calls := by
        rw [← Run.filterMap_call?_effects verbose]
        split at h
        · rwa [calls_failed] at h
        · rwa [Outcome.calls, List.filterMap_append, filterMap_call?_showResult,
            List.append_nil] at h
      obtain ⟨settings, key, hready, -, hcarries⟩ := (w.sends_submitTo _).carries c hcall
      exact ⟨files, tag, settings, _, rfl, hready.loaded, rfl, rfl, hcarries.payload_eq⟩

/-- **The text that `bundle` writes is that of the files that `run` posts**, joined by newlines, and
the language that is posted is the one that `bundle` has found. -/
theorem bundle_writes_what_run_posts (w : World) (bundleArgs runArgs : List String)
    (files : List String) (lang output : Option String) (version : Option Argument)
    (stdin : Option String) (verbose verbose' : Bool)
    (hbundle : readInvocation bundleArgs = .ok ⟨verbose, .bundle files lang output⟩)
    (hrun : readInvocation runArgs = .ok ⟨verbose', .run files lang version stdin⟩)
    (hexit : (invoke w bundleArgs).exit = .ok 0) (c : Call) (hcall : c ∈ (invoke w runArgs).calls) :
    ∃ sources tag contents, sourcesAndLanguage w.disk files lang = .ok (sources, tag) ∧
      c.payload.field? "language" = some (.text tag) ∧ contents? c.payload = some contents ∧
      (invoke w bundleArgs).Wrote output ("\n".intercalate contents) := by
  have hinvoke : invoke w bundleArgs = runBundle w verbose files lang output := by
    simp [invoke, hbundle]
  have hinvoke' : invoke w runArgs = runRemote w verbose' files lang version stdin := by
    simp [invoke, hrun]
  rw [hinvoke] at hexit ⊢
  rw [hinvoke'] at hcall
  obtain ⟨sources, tag, settings, hsources, hsettings, hwrote⟩ := runBundle_wrote hexit
  obtain ⟨sources', tag', settings', r, hsources', hsettings', hlanguage, hfiles, hpayload⟩ :=
    runRemote_posted hcall
  obtain ⟨rfl, rfl⟩ := Prod.mk.inj (Except.ok.inj (hsources.symm.trans hsources'))
  obtain rfl := Except.ok.inj (hsettings.symm.trans hsettings')
  rw [bundledText, joinedText] at hwrote
  refine ⟨sources, tag, _, hsources, ?_, ?_, hwrote⟩
  · rw [hpayload, r.field?_language_payload, hlanguage, Language.tagOfText_proper,
      tag_of_sourcesAndLanguage hsources]
  · rw [hpayload, Request.contents?_payload hfiles, hlanguage, Text.display_proper]

/-- Two files on a disk, and a service that does not answer. -/
def twoFileWorld : World :=
  { disk := Disk.ofList ["home", "user"]
      [("main.c", .file (Utf8.encode "#include \"a.h\"\nint main(void);\n")),
        ("a.h", .file (Utf8.encode "int a;\n"))]
    homes := ⟨"/home/user", []⟩
    key := some "key"
    transport := fun _ => .timedOut
    depths := ⟨1, 1, 33⟩ }

def bundleToFile : List String := ["bundle", "--lang", " C", "-o", "out.c", "main.c", "a.h"]

def runFiles : List String := ["run", "--lang", " C", "main.c", "a.h"]

theorem bundle_writes_what_run_posts_twoFileWorld :
    readInvocation bundleToFile = .ok ⟨false,
      .bundle ["main.c", "a.h"] (some " C") (some "out.c")⟩ ∧
      readInvocation runFiles = .ok ⟨false, .run ["main.c", "a.h"] (some " C") none none⟩ ∧
      (invoke twoFileWorld bundleToFile).exit = .ok 0 ∧
      ∃ c ∈ (invoke twoFileWorld runFiles).calls, ∃ sources tag contents,
        sourcesAndLanguage twoFileWorld.disk ["main.c", "a.h"] (some " C") = .ok (sources, tag) ∧
        c.payload.field? "language" = some (.text tag) ∧ contents? c.payload = some contents ∧
        (invoke twoFileWorld bundleToFile).disk.read "out.c" =
          .ok (Utf8.encode ("\n".intercalate contents)) := by
  have hbundle : readInvocation bundleToFile =
      .ok ⟨false, .bundle ["main.c", "a.h"] (some " C") (some "out.c")⟩ := by rfl
  have hrun : readInvocation runFiles =
      .ok ⟨false, .run ["main.c", "a.h"] (some " C") none none⟩ := by rfl
  have hexit : (invoke twoFileWorld bundleToFile).exit = .ok 0 :=
    eq_ok_of_toOption (by decide +kernel)
  have hcalls : (invoke twoFileWorld runFiles).calls.length = 1 := by decide +kernel
  obtain ⟨c, hc⟩ := List.length_eq_one_iff.mp hcalls
  have hcall : c ∈ (invoke twoFileWorld runFiles).calls := by simp [hc]
  exact ⟨hbundle, hrun, hexit, c, hcall,
    bundle_writes_what_run_posts twoFileWorld bundleToFile runFiles _ _ _ _ _ _ _
    hbundle hrun hexit c hcall⟩

end Cli

end Amalgam
