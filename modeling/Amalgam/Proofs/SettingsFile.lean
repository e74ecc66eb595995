import Amalgam.Proofs.Acceptance
import Amalgam.Proofs.Encoding
import Amalgam.Remote.Settings

/-!
# Which settings hold

Settings are read from the first path at which something stands, and only from there.  What stands
there may be no file, its bytes may be no text, the text may be no JSON, the value may be no object,
and a field may be refused.  The first and the third of these leave the defaults in force, and the
last two are reported.  The second is neither ignored nor reported:
`undecodable_settings_ignored_fails`.

* `Homes.search_cases` — the search along the paths ends at the first one at which something stands,
  unless it comes to one that cannot be looked up.
* `Settings.ofFields_eq_ok_iff`, `Settings.ofFields_eq_error_iff` — the fields that are given take
  the place of the defaults, and the first of them that is refused is named.
* `Settings.Gives` — the settings or the failure that what stands at a path gives.  It goes by what
  the bytes spell, what the text reads as and which fields stand in it; only numbers are left to the
  check that reads them.
* `settings_come_from_first_path` — settings are loaded in this way, and nothing behind the first
  path matters.
-/

set_option autoImplicit false

namespace Amalgam

open Value

/-! ## The search along the paths -/

namespace Homes

variable {homes : Homes} {disk : Disk} {paths : List String}

/-- The path can be looked up, and nothing stands there. -/
def Vacant (homes : Homes) (disk : Disk) (path : String) : Prop :=
  ∃ place cause, homes.expand path = .ok place ∧ disk.find place = .error cause

/-- One of the paths has the property, and the paths before it are vacant. -/
def Behind (homes : Homes) (disk : Disk) (paths : List String) (P : String → Prop) : Prop :=
  ∃ earlier path later, paths = earlier ++ path :: later ∧ (∀ p ∈ earlier, homes.Vacant disk p) ∧
    P path

/-- The first of the paths at which something stands leads to the place, and the node stands
there. -/
def FirstAt (homes : Homes) (disk : Disk) (paths : List String) (place : String) (node : Node) :
    Prop :=
  homes.Behind disk paths fun path => homes.expand path = .ok place ∧ disk.find place = .ok node

/-- The search comes to a path that cannot be looked up. -/
def StuckAt (homes : Homes) (disk : Disk) (paths : List String) (e : OpenError) : Prop :=
  homes.Behind disk paths fun path => homes.expand path = .error e

theorem Behind.cons {P : String → Prop} {path : String} (hpath : homes.Vacant disk path)
    (h : homes.Behind disk paths P) : homes.Behind disk (path :: paths) P := by
  obtain ⟨earlier, found, later, rfl, hvacant, hfound⟩ := h
  exact ⟨path :: earlier, found, later, rfl, List.forall_mem_cons.mpr ⟨hpath, hvacant⟩, hfound⟩

theorem Behind.head {P : String → Prop} {path : String} (h : P path) :
    homes.Behind disk (path :: paths) P :=
  ⟨[], path, paths, rfl, by simp, h⟩

theorem locate_cons_of_error {path : String} {e : OpenError} (h : homes.expand path = .error e) :
    homes.locate disk (path :: paths) = .error e := by
  simp only [locate, h]

theorem locate_cons_of_ok {path place : String} {node : Node} (h : homes.expand path = .ok place)
    (hnode : disk.find place = .ok node) :
    homes.locate disk (path :: paths) = .ok (some place) := by
  simp [locate, h, Disk.pathExists, hnode, Except.toOption]

theorem locate_cons_of_vacant {path : String} (h : homes.Vacant disk path) :
    homes.locate disk (path :: paths) = homes.locate disk paths := by
  obtain ⟨place, cause, hpath, hnone⟩ := h
  rw [locate]
  simp [hpath, Disk.pathExists, hnone, Except.toOption]

/-- The search goes on behind vacant paths. -/
theorem locate_append_of_vacant {earlier : List String} (h : ∀ p ∈ earlier, homes.Vacant disk p) :
    homes.locate disk (earlier ++ paths) = homes.locate disk paths := by
  induction earlier with
  | nil => rfl
  | cons path earlier ih =>
    obtain ⟨hpath, hearlier⟩ := List.forall_mem_cons.mp h
    rw [List.cons_append, locate_cons_of_vacant hpath, ih hearlier]

theorem locate_of_vacant (h : ∀ path ∈ paths, homes.Vacant disk path) :
    homes.locate disk paths = .ok none := by
  rw [← List.append_nil paths, locate_append_of_vacant h]
  rfl

theorem FirstAt.locate_eq {place : String} {node : Node} (h : homes.FirstAt disk paths place node) :
    homes.locate disk paths = .ok (some place) := by
  obtain ⟨earlier, path, later, rfl, hvacant, hpath, hnode⟩ := h
  rw [locate_append_of_vacant hvacant, locate_cons_of_ok hpath hnode]

theorem FirstAt.find_eq {place : String} {node : Node} (h : homes.FirstAt disk paths place node) :
    disk.find place = .ok node := by
  obtain ⟨-, -, -, -, -, -, hnode⟩ := h
  exact hnode

theorem StuckAt.locate_eq {e : OpenError} (h : homes.StuckAt disk paths e) :
    homes.locate disk paths = .error e := by
  obtain ⟨earlier, path, later, rfl, hvacant, hpath⟩ := h
  rw [locate_append_of_vacant hvacant, locate_cons_of_error hpath]

/-- **A search finds nothing, or the first path at which something stands, or a path that cannot be
looked up.** -/
theorem search_cases (homes : Homes) (disk : Disk) (paths : List String) :
    (∀ path ∈ paths, homes.Vacant disk path) ∨ (∃ place node, homes.FirstAt disk paths place node) ∨
      ∃ e, homes.StuckAt disk paths e := by
  induction paths with
  | nil => exact Or.inl (by simp)
  | cons path paths ih =>
    cases hpath : homes.expand path with
    | error e => exact Or.inr (Or.inr ⟨e, .head hpath⟩)
    | ok place =>
      cases hnode : disk.find place with
      | ok node => exact Or.inr (Or.inl ⟨place, node, .head ⟨hpath, hnode⟩⟩)
      | error cause =>
        have hvacant : homes.Vacant disk path := ⟨place, cause, hpath, hnode⟩
        rcases ih with hall | ⟨place, node, hfirst⟩ | ⟨e, hstuck⟩
        · exact Or.inl (List.forall_mem_cons.mpr ⟨hvacant, hall⟩)
        · exact Or.inr (Or.inl ⟨place, node, .cons hvacant hfirst⟩)
        · exact Or.inr (Or.inr ⟨e, .cons hvacant hstuck⟩)

end Homes

/-! ## The fields -/

namespace Settings

/-- The rule for a field whose value is read as a number. -/
def numberRule {α : Type} (name : String) (check : Value → Except Reason α) : FieldRule :=
  ⟨name, fun v reason => check v = .error reason⟩

/-- The fields of a settings file, in the order in which they are judged. -/
def rules : List FieldRule :=
  [⟨"url", NoText⟩, ⟨"host", NoText⟩, numberRule "timeout" asDouble, ⟨"version", NoText⟩,
    numberRule "max_include_depth" asWhole]

/-- The settings are the defaults, with the fields that are given in their place. -/
structure Override (fields : Fields) (s : Settings) : Prop where
  url : Reads fields "url" default.url (fun v t => v = .text t) s.url
  host : Reads fields "host" default.host (fun v t => v = .text t) s.host
  timeout : Reads fields "timeout" default.timeout (fun v x => v.asDouble = .ok x) s.timeout
  version : Reads fields "version" default.version (fun v t => v = .text t) s.version
  includeLimit : Reads fields "max_include_depth" default.includeLimit
    (fun v i => v.asWhole = .ok i) s.includeLimit

theorem ofFields_eq (fields : Fields) :
    ofFields fields =
      (checkField fields "url" asText default.url >>= fun url =>
        checkField fields "host" asText default.host >>= fun host =>
          checkField fields "timeout" asDouble default.timeout >>= fun timeout =>
            checkField fields "version" asText default.version >>= fun version =>
              checkField fields "max_include_depth" asWhole default.includeLimit >>=
                fun includeLimit => .ok ⟨url, host, timeout, version, includeLimit⟩) := rfl

theorem ofFields_eq_ok_iff {fields : Fields} {s : Settings} :
    ofFields fields = .ok s ↔ s.Override fields := by
  have htext : ∀ name default t, checkField fields name asText default = .ok t ↔
      Reads fields name default (fun v t => v = .text t) t :=
    fun name default t => checkField_eq_ok_iff fun v => asText_eq_ok_iff
  have hdouble : ∀ name default x, checkField fields name asDouble default = .ok x ↔
      Reads fields name default (fun v x => v.asDouble = .ok x) x :=
    fun name default x => checkField_eq_ok_iff fun v => Iff.rfl
  have hwhole : ∀ name default i, checkField fields name asWhole default = .ok i ↔
      Reads fields name default (fun v i => v.asWhole = .ok i) i :=
    fun name default i => checkField_eq_ok_iff fun v => Iff.rfl
  simp only [ofFields_eq, bind_eq_ok_iff, htext, hdouble, hwhole]
  constructor
  · rintro ⟨url, hurl, host, hhost, timeout, htimeout, version, hversion, limit, hlimit, hs⟩
    cases hs
    exact ⟨hurl, hhost, htimeout, hversion, hlimit⟩
  · rintro ⟨hurl, hhost, htimeout, hversion, hlimit⟩
    exact ⟨_, hurl, _, hhost, _, htimeout, _, hversion, _, hlimit, rfl⟩

/-- **The error names the first field that is refused.** -/
theorem ofFields_eq_error_iff {fields : Fields} {e : FieldError} :
    ofFields fields = .error e ↔ NamesFirst fields rules e := by
  have htext : ∀ v reason, asText v = .error reason ↔ NoText v reason :=
    fun _ _ => asText_eq_error_iff
  rw [ofFields_eq, rules]
  refine checkField_bind_eq_error_iff ⟨"url", NoText⟩ htext fun url => ?_
  refine checkField_bind_eq_error_iff ⟨"host", NoText⟩ htext fun host => ?_
  refine checkField_bind_eq_error_iff (numberRule "timeout" asDouble) (fun _ _ => Iff.rfl)
    fun timeout => ?_
  refine checkField_bind_eq_error_iff ⟨"version", NoText⟩ htext fun version => ?_
  refine checkField_bind_eq_error_iff (numberRule "max_include_depth" asWhole) (fun _ _ => Iff.rfl)
    fun includeLimit => ?_
  exact ⟨nofun, fun h => absurd h not_namesFirst_nil⟩

end Settings

/-! ## What stands at the path -/

/-- The text is not JSON, whatever the reader's own limits are. -/
def Json.Cause.IsSyntax : Json.Cause → Prop
  | .tooManyDigits _ => False
  | .tooDeep _ => False
  | _ => True

theorem Json.Cause.eq_of_not_isSyntax {cause : Json.Cause} (h : ¬ cause.IsSyntax) :
    (∃ count, cause = .tooManyDigits count) ∨ ∃ container, cause = .tooDeep container := by
  cases cause with
  | tooManyDigits count => exact Or.inl ⟨count, rfl⟩
  | tooDeep container => exact Or.inr ⟨container, rfl⟩
  | byteOrderMark | expectedValue | expectedName | expectedColon | expectedComma | extraData
  | unterminatedString | controlCharacter | badEscape | badUnicodeEscape => exact absurd trivial h

namespace Settings

/-- The text of a settings file. -/
def textOf (s : String) : List Char := unifyNewlines s.toList

/-- The settings or the failure that a node at the place gives. -/
inductive Gives (levels : Nat) (place : String) : Node → Except Failure Settings → Prop where
  | directory : Gives levels place .directory (.ok default)
  | undecodable {bytes : List UInt8} {e : Utf8.Error} (h : ∀ s, bytes ≠ Utf8.encode s)
      (he : Utf8.decode bytes = .error e) :
      Gives levels place (.file bytes) (.error (.fault (.undecodable e)))
  | notJson {s : String} {e : Json.Error} (h : Json.parse levels (textOf s) = .error e)
      (hcause : e.cause.IsSyntax) :
      Gives levels place (.file (Utf8.encode s)) (.ok default)
  | tooManyDigits {s : String} {count offset : Nat}
      (h : Json.parse levels (textOf s) = .error ⟨.tooManyDigits count, offset⟩) :
      Gives levels place (.file (Utf8.encode s)) (.error (.fault (.tooManyDigits count)))
  | tooDeep {s : String} {container : Json.Container} {offset : Nat}
      (h : Json.parse levels (textOf s) = .error ⟨.tooDeep container, offset⟩) :
      Gives levels place (.file (Utf8.encode s)) (.error (.fault (.tooDeep container)))
  | notObject {s : String} {v : Value} (h : Json.parse levels (textOf s) = .ok v)
      (hv : ∀ fields, v ≠ .object fields) :
      Gives levels place (.file (Utf8.encode s)) (.error (.settings (.notObject place)))
  | badField {s : String} {fields : Fields} {e : FieldError}
      (h : Json.parse levels (textOf s) = .ok (.object fields))
      (hfirst : NamesFirst fields rules e) :
      Gives levels place (.file (Utf8.encode s)) (.error (.settings (.badField place e)))
  | given {s : String} {fields : Fields} {settings : Settings}
      (h : Json.parse levels (textOf s) = .ok (.object fields))
      (hgiven : settings.Override fields) :
      Gives levels place (.file (Utf8.encode s)) (.ok settings)

variable {levels : Nat}

theorem ofFile_of_directory {disk : Disk} {place : String} (h : disk.find place = .ok .directory) :
    (ofFile levels disk place).value = .ok default := by
  simp only [ofFile, Disk.read, h]

theorem ofFile_of_error {disk : Disk} {place : String} {bytes : List UInt8}
    (h : disk.find place = .ok (.file bytes)) {e : Utf8.Error} (he : Utf8.decode bytes = .error e) :
    (ofFile levels disk place).value = .error (.fault (.undecodable e)) := by
  have hread : Utf8.readText bytes = .error e := by
    rw [Utf8.readText, he]
    rfl
  simp only [ofFile, Disk.read, h, hread]

/-- The text of a file is read as JSON. -/
theorem ofFile_of_encode {disk : Disk} {place s : String}
    (h : disk.find place = .ok (.file (Utf8.encode s))) :
    (∀ v, Json.parse levels (textOf s) = .ok v →
      (ofFile levels disk place).value = ofValue place v) ∧
    (∀ count offset, Json.parse levels (textOf s) = .error ⟨.tooManyDigits count, offset⟩ →
      (ofFile levels disk place).value = .error (.fault (.tooManyDigits count))) ∧
    (∀ container offset, Json.parse levels (textOf s) = .error ⟨.tooDeep container, offset⟩ →
      (ofFile levels disk place).value = .error (.fault (.tooDeep container))) ∧
    ∀ e, Json.parse levels (textOf s) = .error e → e.cause.IsSyntax →
      (ofFile levels disk place).value = .ok default := by
  have hread : Utf8.readText (Utf8.encode s) = .ok (String.ofList (textOf s)) :=
    Utf8.readText_eq_ok_iff.mpr ⟨s, rfl, rfl⟩
  simp only [ofFile, Disk.read, h, hread, String.toList_ofList]
  refine ⟨fun v hparse => by rw [hparse], fun count offset hparse => by rw [hparse],
    fun container offset hparse => by rw [hparse], fun e hparse hcause => ?_⟩
  rw [hparse]
  obtain ⟨cause, offset⟩ := e
  cases cause with
  | tooManyDigits | tooDeep => cases hcause
  | byteOrderMark | expectedValue | expectedName | expectedColon | expectedComma | extraData
  | unterminatedString | controlCharacter | badEscape | badUnicodeEscape => rfl

theorem ofValue_of_not_object {place : String} {v : Value} (h : ∀ fields, v ≠ .object fields) :
    ofValue place v = .error (.settings (.notObject place)) := by
  cases v with
  | object fields => exact absurd rfl (h fields)
  | null | bool | int | real | text | list => rfl

/-- What a file gives that holds the text. -/
theorem gives_of_text {disk : Disk} {place s : String}
    (h : disk.find place = .ok (.file (Utf8.encode s))) :
    Gives levels place (.file (Utf8.encode s)) (ofFile levels disk place).value := by
  obtain ⟨hvalue, hdigits, hdeep, hbroken⟩ := ofFile_of_encode h
  cases hparse : Json.parse levels (textOf s) with
  | ok v =>
    rw [hvalue v hparse]
    by_cases hobject : ∃ fields, v = .object fields
    · obtain ⟨fields, rfl⟩ := hobject
      rw [ofValue]
      cases hfields : ofFields fields with
      | ok settings => exact .given hparse (ofFields_eq_ok_iff.mp hfields)
      | error e => exact .badField hparse (ofFields_eq_error_iff.mp hfields)
    · have hnone : ∀ fields, v ≠ .object fields := fun fields hv => hobject ⟨fields, hv⟩
      rw [ofValue_of_not_object hnone]
      exact .notObject hparse hnone
  | error e =>
    by_cases hcause : e.cause.IsSyntax
    · rw [hbroken e hparse hcause]
      exact .notJson hparse hcause
    · obtain ⟨cause, offset⟩ := e
      rcases Json.Cause.eq_of_not_isSyntax hcause with ⟨count, rfl⟩ | ⟨container, rfl⟩
      · rw [hdigits count offset hparse]
        exact .tooManyDigits hparse
      · rw [hdeep container offset hparse]
        exact .tooDeep hparse

/-- **What stands at the path gives the settings.** -/
theorem gives_ofFile {disk : Disk} {place : String} {node : Node} (h : disk.find place = .ok node) :
    Gives levels place node (ofFile levels disk place).value := by
  cases node with
  | directory =>
    rw [ofFile_of_directory h]
    exact .directory
  | file bytes =>
    by_cases htext : ∃ s, bytes = Utf8.encode s
    · obtain ⟨s, rfl⟩ := htext
      exact gives_of_text h
    · have hnone : ∀ s, bytes ≠ Utf8.encode s := fun s hs => htext ⟨s, hs⟩
      cases hdecode : Utf8.decode bytes with
      | error e =>
        rw [ofFile_of_error h hdecode]
        exact .undecodable hnone hdecode
      | ok cs => exact absurd (Utf8.decode_eq_ok_iff.mp hdecode) (hnone _)

/-- It gives nothing else. -/
theorem Gives.ofFile_eq {disk : Disk} {place : String} {node : Node} {r : Except Failure Settings}
    (h : Gives levels place node r) (hnode : disk.find place = .ok node) :
    (ofFile levels disk place).value = r := by
  cases h with
  | directory => exact ofFile_of_directory hnode
  | undecodable _ he => exact ofFile_of_error hnode he
  | notJson hparse hcause => exact (ofFile_of_encode hnode).2.2.2 _ hparse hcause
  | tooManyDigits hparse => exact (ofFile_of_encode hnode).2.1 _ _ hparse
  | tooDeep hparse => exact (ofFile_of_encode hnode).2.2.1 _ _ hparse
  | notObject hparse hv =>
    rw [(ofFile_of_encode hnode).1 _ hparse]
    exact ofValue_of_not_object hv
  | badField hparse hfirst =>
    have hfields := ofFields_eq_error_iff.mpr hfirst
    rw [(ofFile_of_encode hnode).1 _ hparse]
    simp [ofValue, hfields, mapError_error]
  | given hparse hgiven =>
    have hfields := ofFields_eq_ok_iff.mpr hgiven
    rw [(ofFile_of_encode hnode).1 _ hparse]
    simp [ofValue, hfields, mapError_ok]

/-! ## Loading -/

/-- The paths that are searched; no paths stand for the default ones. -/
def searched (paths : List String) : List String := if paths.isEmpty then defaultPaths else paths

/-- The settings or the failure that the paths lead to. -/
inductive Loads (levels : Nat) (disk : Disk) (homes : Homes) (paths : List String) :
    Except Failure Settings → Prop where
  | nowhere (h : ∀ path ∈ paths, homes.Vacant disk path) :
      Loads levels disk homes paths (.ok default)
  | found {place : String} {node : Node} {r : Except Failure Settings}
      (h : homes.FirstAt disk paths place node) (hr : Gives levels place node r) :
      Loads levels disk homes paths r
  | stuck {e : OpenError} (h : homes.StuckAt disk paths e) :
      Loads levels disk homes paths (.error (.fault (.cannotOpen e)))

variable {disk : Disk} {homes : Homes} {paths : List String}

theorem load_of_vacant (h : ∀ path ∈ searched paths, homes.Vacant disk path) :
    load levels disk homes paths = ⟨.ok default, []⟩ := by
  have hlocate := Homes.locate_of_vacant h
  unfold searched at hlocate
  simp only [load, hlocate]

theorem load_of_firstAt {place : String} {node : Node}
    (h : homes.FirstAt disk (searched paths) place node) :
    load levels disk homes paths = ofFile levels disk place := by
  have hlocate := h.locate_eq
  unfold searched at hlocate
  simp only [load, hlocate]

theorem load_of_stuckAt {e : OpenError} (h : homes.StuckAt disk (searched paths) e) :
    load levels disk homes paths = ⟨.error (.fault (.cannotOpen e)), []⟩ := by
  have hlocate := h.locate_eq
  unfold searched at hlocate
  simp only [load, hlocate]

theorem load_eq_iff {r : Except Failure Settings} :
    (load levels disk homes paths).value = r ↔ Loads levels disk homes (searched paths) r := by
  constructor
  · rintro rfl
    rcases homes.search_cases disk (searched paths) with hnone | ⟨place, node, hfirst⟩ | ⟨e, hstuck⟩
    · rw [load_of_vacant hnone]
      exact .nowhere hnone
    · rw [load_of_firstAt hfirst]
      exact .found hfirst (gives_ofFile hfirst.find_eq)
    · rw [load_of_stuckAt hstuck]
      exact .stuck hstuck
  · intro h
    cases h with
    | nowhere hnone => rw [load_of_vacant hnone]
    | found hfirst hgives =>
      rw [load_of_firstAt hfirst]
      exact hgives.ofFile_eq hfirst.find_eq
    | stuck hstuck => rw [load_of_stuckAt hstuck]

/-- Only what stands at the first path matters. -/
theorem load_eq_of_firstAt {disk' : Disk} {homes' : Homes} {paths' : List String} {place : String}
    {node : Node} (h : homes.FirstAt disk (searched paths) place node)
    (h' : homes'.FirstAt disk' (searched paths') place node) :
    load levels disk homes paths = load levels disk' homes' paths' := by
  have hread : disk.read place = disk'.read place := by
    unfold Disk.read
    rw [h.find_eq, h'.find_eq]
  rw [load_of_firstAt h, load_of_firstAt h', ofFile, ofFile, hread]

/-- An error of the settings names the file. -/
theorem Gives.file_eq {place : String} {node : Node} {e : SettingsError}
    (h : Gives levels place node (.error (.settings e))) :
    e.diagnostic.file = some place := by
  cases h with
  | notObject | badField => rfl

/-- A failure is an error of the settings or a fault. -/
theorem Loads.error_cases {e : Failure} (h : Loads levels disk homes paths (.error e)) :
    (∃ e', e = .settings e') ∨ ∃ f, e = .fault f := by
  cases h with
  | stuck => exact Or.inr ⟨_, rfl⟩
  | found hfirst hgives =>
    cases hgives with
    | undecodable | tooManyDigits | tooDeep => exact Or.inr ⟨_, rfl⟩
    | notObject | badField => exact Or.inl ⟨_, rfl⟩

/-- The bytes of a settings file that are neither ignored nor reported: they are no text, or a text
that the reader of JSON gives up on. -/
inductive Escapes (levels : Nat) : List UInt8 → Prop where
  | undecodable {bytes : List UInt8} (h : ∀ s, bytes ≠ Utf8.encode s) : Escapes levels bytes
  | beyond {s : String} {e : Json.Error} (h : Json.parse levels (textOf s) = .error e)
      (hcause : ¬ e.cause.IsSyntax) :
      Escapes levels (Utf8.encode s)

/-- Which files end in a fault. -/
theorem exists_gives_fault_iff {place : String} {node : Node} :
    (∃ f, Gives levels place node (.error (.fault f))) ↔
      ∃ bytes, node = .file bytes ∧ Escapes levels bytes := by
  constructor
  · rintro ⟨f, h⟩
    cases h with
    | undecodable hnone => exact ⟨_, rfl, .undecodable hnone⟩
    | tooManyDigits hparse => exact ⟨_, rfl, .beyond hparse id⟩
    | tooDeep hparse => exact ⟨_, rfl, .beyond hparse id⟩
  · rintro ⟨bytes, rfl, hescapes⟩
    cases hescapes with
    | undecodable hnone =>
      cases hdecode : Utf8.decode bytes with
      | error e => exact ⟨_, .undecodable hnone hdecode⟩
      | ok cs => exact absurd (Utf8.decode_eq_ok_iff.mp hdecode) (hnone _)
    | @beyond s e hparse hcause =>
      obtain ⟨cause, offset⟩ := e
      rcases Json.Cause.eq_of_not_isSyntax hcause with ⟨count, rfl⟩ | ⟨container, rfl⟩
      · exact ⟨_, .tooManyDigits hparse⟩
      · exact ⟨_, .tooDeep hparse⟩

theorem exists_loads_fault_iff :
    (∃ f, Loads levels disk homes paths (.error (.fault f))) ↔
      (∃ e, homes.StuckAt disk paths e) ∨
        ∃ place bytes, homes.FirstAt disk paths place (.file bytes) ∧ Escapes levels bytes := by
  constructor
  · rintro ⟨f, h⟩
    cases h with
    | stuck hstuck => exact Or.inl ⟨_, hstuck⟩
    | found hfirst hgives =>
      obtain ⟨bytes, rfl, hescapes⟩ := exists_gives_fault_iff.mp ⟨f, hgives⟩
      exact Or.inr ⟨_, bytes, hfirst, hescapes⟩
  · rintro (⟨e, hstuck⟩ | ⟨place, bytes, hfirst, hescapes⟩)
    · exact ⟨_, .stuck hstuck⟩
    · obtain ⟨f, hgives⟩ := exists_gives_fault_iff.mpr ⟨bytes, rfl, hescapes⟩
      exact ⟨f, .found hfirst hgives⟩

end Settings

/-- **Settings come from the first path at which something stands.**  They are loaded as
`Settings.Loads` says: nothing, a directory and a text that is not JSON leave the defaults in force,
a value that is no object and the first field that is refused are reported, and the report names the
file.  Nothing behind that path matters.  Any other failure is a fault, and faults are those of a
path that cannot be looked up, of bytes that are no text, and of a text that the reader gives up
on. -/
theorem settings_come_from_first_path (levels : Nat) (disk : Disk) (homes : Homes)
    (paths : List String) :
    (∀ r, (Settings.load levels disk homes paths).value = r ↔
      Settings.Loads levels disk homes (Settings.searched paths) r) ∧
    (∀ disk' homes' paths' place node, homes.FirstAt disk (Settings.searched paths) place node →
      Homes.FirstAt homes' disk' (Settings.searched paths') place node →
      Settings.load levels disk homes paths = Settings.load levels disk' homes' paths') ∧
    (∀ e, (Settings.load levels disk homes paths).value = .error (.settings e) →
      ∃ place node, homes.FirstAt disk (Settings.searched paths) place node ∧
        e.diagnostic.file = some place) ∧
    (∀ e, (Settings.load levels disk homes paths).value = .error e →
      (∃ e', e = .settings e') ∨ ∃ f, e = .fault f) ∧
    ((∃ f, (Settings.load levels disk homes paths).value = .error (.fault f)) ↔
      (∃ e, homes.StuckAt disk (Settings.searched paths) e) ∨
      ∃ place bytes, homes.FirstAt disk (Settings.searched paths) place (.file bytes) ∧
        Settings.Escapes levels bytes) := by
  refine ⟨fun r => Settings.load_eq_iff, fun _ _ _ _ _ h h' => Settings.load_eq_of_firstAt h h',
    fun e h => ?_, fun e h => (Settings.load_eq_iff.mp h).error_cases, ?_⟩
  · cases Settings.load_eq_iff.mp h with
    | found hfirst hgives => exact ⟨_, _, hfirst, hgives.file_eq⟩
  · simp only [Settings.load_eq_iff]
    exact Settings.exists_loads_fault_iff

/-- A disk with a settings file in the working directory. -/
def settingsDisk (bytes : List UInt8) : Disk :=
  ⟨[(["home", "user", "tubundle.json"], .file bytes)], ["home", "user"]⟩

/-- A disk with a second settings file in the home directory. -/
def crowdedDisk (bytes second : List UInt8) : Disk :=
  ⟨[(["home", "user", "tubundle.json"], .file bytes),
    (["home", "user", ".tubundle", "config.json"], .file second)], ["home", "user"]⟩

def userHomes : Homes := ⟨"/home/user", []⟩

theorem firstAt_settingsDisk (bytes : List UInt8) :
    userHomes.FirstAt (settingsDisk bytes) (Settings.searched []) "tubundle.json" (.file bytes) :=
  .head ⟨rfl, rfl⟩

/-- Settings in which the time-out is a list. -/
def faultySettings : String := "\x7b\"timeout\": []\x7d"

theorem settings_come_from_first_path_faultySettings :
    Settings.load 2 (crowdedDisk (Utf8.encode faultySettings) [0xFF]) userHomes [] =
      Settings.load 2 (settingsDisk (Utf8.encode faultySettings)) userHomes ["none",
        "tubundle.json"] ∧
    (Settings.load 2 (settingsDisk (Utf8.encode faultySettings)) userHomes []).value =
      .error (.settings (.badField "tubundle.json" ⟨"timeout", .notNumber⟩)) := by
  have hcrowded : ∀ bytes second,
      userHomes.FirstAt (crowdedDisk bytes second) (Settings.searched []) "tubundle.json"
      (.file bytes) := fun bytes second => .head ⟨rfl, rfl⟩
  have hbehind : ∀ bytes, userHomes.FirstAt (settingsDisk bytes)
      (Settings.searched ["none", "tubundle.json"])
      "tubundle.json" (.file bytes) :=
      fun bytes => .cons ⟨"none", .missing, rfl, rfl⟩ (.head ⟨rfl, rfl⟩)
  have hparse : Json.parse 2 (Settings.textOf faultySettings) =
      .ok (.object [("timeout", .list [])]) := rfl
  have hfirst : NamesFirst [("timeout", .list [])] Settings.rules ⟨"timeout", .notNumber⟩ := by
    refine ⟨2, Settings.numberRule "timeout" asDouble, .notNumber, ?_, rfl⟩
    refine ⟨rfl, ⟨.list [], rfl, rfl⟩, fun earlier hearlier other hother why hbreaks => ?_⟩
    obtain ⟨v, hv, -⟩ := hbreaks
    match earlier, hearlier with
    | 0, _ | 1, _ =>
      cases hother
      cases hv
  obtain ⟨-, hsame, -⟩ :=
    settings_come_from_first_path 2 (crowdedDisk (Utf8.encode faultySettings) [0xFF]) userHomes []
  obtain ⟨hloads, -⟩ :=
    settings_come_from_first_path 2 (settingsDisk (Utf8.encode faultySettings)) userHomes []
  exact ⟨hsame _ _ _ _ _ (hcrowded _ _) (hbehind _),
    (hloads _).mpr (.found (firstAt_settingsDisk _) (.badField hparse hfirst))⟩

/-- A settings file that is no text is not ignored: the defaults do not hold. -/
theorem undecodable_settings_ignored_fails :
    ¬ ∃ levels : Nat, ∀ (disk : Disk) (homes : Homes) (paths : List String) (place : String)
        (bytes : List UInt8),
      homes.FirstAt disk (Settings.searched paths) place (.file bytes) →
        (∀ s, bytes ≠ Utf8.encode s) →
          (Settings.load levels disk homes paths).value = .ok .default := by
  rintro ⟨levels, hall⟩
  have hnone : ∀ s, [0xFF] ≠ Utf8.encode s := Utf8.exists_readText_eq_error_iff.mp ⟨_, rfl⟩
  have hfault : (Settings.load levels (settingsDisk [0xFF]) userHomes []).value =
      .error (.fault (.undecodable ⟨.start, 0, 1, 0xFF⟩)) := rfl
  cases hfault.symm.trans (hall _ _ _ _ _ (firstAt_settingsDisk [0xFF]) hnone)

end Amalgam
