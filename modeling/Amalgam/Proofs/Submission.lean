import Amalgam.Proofs.Nesting
import Amalgam.Remote.Submission

/-!
# What a submission sends

A request is checked, the settings are read, the files are bundled, the key is looked up, and only
then is anything sent.  Each stage can fail.  The bundling fails only where headers nest deeper than
there is room for, but it does so there, also below the limit of the settings:
`accepted_request_posted_fails`.

* `Request.Fits` — there is room for the headers of a request, as they nest.
* `World.Sends` — how the submission of a request ends: at the first stage that fails, or with the
  outcome of the one call that is made.
* `submission_posts_at_most_once` — a submission makes at most one call, and makes it exactly when
  the request is accepted, the settings can be read, there is room for the headers and the key is
  not empty.
-/

set_option autoImplicit false

namespace Amalgam

/-! ## Room for the headers -/

namespace Request

/-- There is room for the headers of a request, as they nest. -/
def Fits (r : Request) (settings : Settings) (levels : Nat) : Prop :=
  NestWithin levels r.tag (r.files.map (FileRecord.spelling r.files).file) settings.includeLimit

variable {r : Request} {settings : Settings} {levels : Nat}

theorem payloadWithin_of_fits (h : r.Fits settings levels) :
    r.payloadWithin levels settings =
      ⟨.ok (r.payload settings).value, (r.payload settings).notices⟩ := by
  rw [payloadWithin, unlessBeyond_of_nestWithin h]

theorem payloadWithin_of_not_fits (h : ¬ r.Fits settings levels) :
    ∃ notices, r.payloadWithin levels settings = ⟨.error .nestedTooDeep, notices⟩ := by
  unfold payloadWithin
  exact unlessBeyond_of_not_nestWithin h (FileRecord.spelling r.files) (r.payload settings)

end Request

/-! ## The stages -/

/-- All that is needed beside a request. -/
structure World.Ready (w : World) (settings : Settings) (key : String) : Prop where
  loaded : (w.settings none).value = .ok settings
  key_set : w.key = some key
  key_ne : key ≠ ""

/-- The call for a request. -/
def Request.call (r : Request) (settings : Settings) (key : String) : Call :=
  Service.call settings key (r.payload settings).value

/-- How the submission of a request ends, and which calls are made. -/
inductive World.Sends (w : World) (r : Request) : Except Failure Value → List Call → Prop where
  | unsettled {e : Failure} (h : (w.settings none).value = .error e) : Sends w r (.error e) []
  | nested {settings : Settings} (hloaded : (w.settings none).value = .ok settings)
      (h : ¬ r.Fits settings w.depths.headers) : Sends w r (.error (.fault .nestedTooDeep)) []
  | noKey {settings : Settings} (hloaded : (w.settings none).value = .ok settings)
      (hfits : r.Fits settings w.depths.headers) (hkey : w.key.getD "" = "") :
      Sends w r (.error (.remote .missingKey)) []
  | posted {settings : Settings} {key : String} (h : w.Ready settings key)
      (hfits : r.Fits settings w.depths.headers) :
      Sends w r (Service.outcome w.depths.answer settings (w.transport (r.call settings key)))
        [r.call settings key]

/-- With a key, the files are counted, and then the call is made. -/
theorem Service.run_eq {key : String} (hkey : key ≠ "") (levels : Nat) (settings : Settings)
    (transport : Call → Reply) (payload : Value) :
    (∀ f, Service.fileCount payload = .error f →
      Service.run levels settings (some key) transport payload = ⟨.error (.fault f), [], []⟩) ∧
    ∀ count, Service.fileCount payload = .ok count → ∃ notice,
      Service.run levels settings (some key) transport payload =
        ⟨Service.outcome levels settings (transport (Service.call settings key payload)), [notice],
          [Service.call settings key payload]⟩ := by
  have hempty : ¬ key.isEmpty = true := fun h => hkey (String.isEmpty_iff.mp h)
  simp only [Service.run, Option.getD_some, if_neg hempty]
  constructor
  · intro f hcount
    rw [hcount]
  · intro count hcount
    exact ⟨_, by rw [hcount]⟩

/-- The service makes one call for the payload of a request, unless there is no key. -/
theorem World.service_cases (w : World) (settings : Settings) (r : Request) :
    (w.key.getD "" = "" ∧ w.service settings (r.payload settings).value =
      ⟨.error (.remote .missingKey), [], []⟩) ∨
    ∃ key notice, w.key = some key ∧ key ≠ "" ∧ w.service settings (r.payload settings).value =
      ⟨Service.outcome w.depths.answer settings (w.transport (r.call settings key)), [notice],
        [r.call settings key]⟩ := by
  unfold World.service
  cases w.key with
  | none => exact Or.inl ⟨rfl, rfl⟩
  | some key =>
    by_cases hkey : key = ""
    · subst hkey
      exact Or.inl ⟨rfl, rfl⟩
    · -- the payload of a request has files that can be counted
      obtain ⟨count, hcount⟩ : ∃ count, Service.fileCount (r.payload settings).value = .ok count :=
        ⟨_, rfl⟩
      obtain ⟨notice, hrun⟩ :=
        (Service.run_eq hkey w.depths.answer settings w.transport (r.payload settings).value).2
          count hcount
      exact Or.inr ⟨key, notice, rfl, hkey, hrun⟩

namespace World

variable {w : World} {r : Request}

theorem submitTo_of_error {e : Failure} (h : (w.settings none).value = .error e) :
    w.submitTo none w.service r = ⟨.error e, (w.settings none).notices, []⟩ := by
  simp only [submitTo, h]

theorem submitTo_of_fits {settings : Settings} (h : (w.settings none).value = .ok settings)
    (hfits : r.Fits settings w.depths.headers) :
    w.submitTo none w.service r =
      ⟨(w.service settings (r.payload settings).value).result,
        (w.settings none).notices ++ (r.payload settings).notices ++
          (w.service settings (r.payload settings).value).notices,
        (w.service settings (r.payload settings).value).calls⟩ := by
  simp only [submitTo, h, Request.payloadWithin_of_fits hfits]

theorem submitTo_of_not_fits {settings : Settings} (h : (w.settings none).value = .ok settings)
    (hdeep : ¬ r.Fits settings w.depths.headers) :
    ∃ notices, w.submitTo none w.service r = ⟨.error (.fault .nestedTooDeep), notices, []⟩ := by
  obtain ⟨notices, hbuilt⟩ := Request.payloadWithin_of_not_fits hdeep
  refine ⟨(w.settings none).notices ++ notices, ?_⟩
  simp only [submitTo, h, hbuilt]

theorem submit_of_error {data : Value} {e : InputError} (h : Request.ofValue data = .error e) :
    w.submit none data = ⟨.error (.input e), [], []⟩ := by
  simp only [submit, submitValueTo, h]

theorem submit_of_ok {data : Value} (h : Request.ofValue data = .ok r) :
    w.submit none data = w.submitTo none w.service r := by
  simp only [submit, submitValueTo, h]

/-- **A request is sent in one call, or the submission ends before it.** -/
theorem sends_submitTo (w : World) (r : Request) :
    w.Sends r (w.submitTo none w.service r).result (w.submitTo none w.service r).calls := by
  cases hloaded : (w.settings none).value with
  | error e =>
    rw [submitTo_of_error hloaded]
    exact .unsettled hloaded
  | ok settings =>
    by_cases hfits : r.Fits settings w.depths.headers
    · rw [submitTo_of_fits hloaded hfits]
      rcases w.service_cases settings r with ⟨hkey, hrun⟩ | ⟨key, notice, hkey, hne, hrun⟩
      · rw [hrun]
        exact .noKey hloaded hfits hkey
      · rw [hrun]
        exact .posted ⟨hloaded, hkey, hne⟩ hfits
    · obtain ⟨notices, hrun⟩ := submitTo_of_not_fits hloaded hfits
      rw [hrun]
      exact .nested hloaded hfits

end World

/-- What a call posts, and where to. -/
structure Call.Carries (c : Call) (settings : Settings) (key : String) (payload : Value) :
    Prop where
  payload_eq : c.payload = payload
  url_eq : c.url = settings.url
  timeout_eq : c.timeout = settings.timeout
  host_eq : c.headers.lookup "X-RapidAPI-Host" = some settings.host
  key_eq : c.headers.lookup "X-RapidAPI-Key" =
    some (.proper (String.ofList (trimBlanks key.toList)))

theorem Request.carries_call (r : Request) (settings : Settings) (key : String) :
    (r.call settings key).Carries settings key (r.payload settings).value :=
  ⟨rfl, rfl, rfl, rfl, rfl⟩

namespace World.Sends

variable {w : World} {r : Request} {result : Except Failure Value} {calls : List Call}

theorem length_le (h : w.Sends r result calls) : calls.length ≤ 1 := by
  cases h with
  | unsettled | nested | noKey => exact Nat.zero_le 1
  | posted => exact Nat.le_refl 1

theorem carries (h : w.Sends r result calls) :
    ∀ c ∈ calls, ∃ settings key, w.Ready settings key ∧ r.Fits settings w.depths.headers ∧
      c.Carries settings key (r.payload settings).value := by
  cases h with
  | unsettled | nested | noKey => simp
  | @posted settings key hready hfits =>
    intro c hc
    obtain rfl := List.mem_singleton.mp hc
    exact ⟨settings, key, hready, hfits, r.carries_call settings key⟩

theorem length_eq_one_iff (h : w.Sends r result calls) :
    calls.length = 1 ↔ ∃ settings key, w.Ready settings key ∧ r.Fits settings w.depths.headers := by
  cases h with
  | unsettled herror =>
    refine iff_of_false (by simp) ?_
    rintro ⟨settings, key, hready, -⟩
    cases herror.symm.trans hready.loaded
  | nested hloaded hdeep =>
    refine iff_of_false (by simp) ?_
    rintro ⟨settings, key, hready, hfits⟩
    obtain rfl := Except.ok.inj (hloaded.symm.trans hready.loaded)
    exact hdeep hfits
  | noKey hloaded hfits hkey =>
    refine iff_of_false (by simp) ?_
    rintro ⟨settings, key, hready, -⟩
    rw [hready.key_set] at hkey
    exact hready.key_ne hkey
  | @posted settings key hready hfits => exact iff_of_true rfl ⟨settings, key, hready, hfits⟩

end World.Sends

/-! ## Accepted requests -/

/-- Files that were accepted are accepted again. -/
theorem filesFrom_toValue (files : List FileRecord) (position : Nat) :
    filesFrom position ((files.map FileRecord.toValue).map .value) = .ok files := by
  induction files generalizing position with
  | nil => rfl
  | cons file files ih =>
    have hfile : (FileItem.value file.toValue).file = .ok file := rfl
    simp only [List.map_cons, filesFrom, hfile, ih (position + 1)]
    rfl

theorem Settings.load_ne_input (levels : Nat) (disk : Disk) (homes : Homes) (paths : List String)
    (e : InputError) :
    (Settings.load levels disk homes paths).value ≠ .error (.input e) := by
  unfold Settings.load
  split
  · simp
  · simp
  · unfold Settings.ofFile
    split
    · simp
    · split
      · simp
      · split
        · rename_i v _
          cases v with
          | object fields =>
            rw [Settings.ofValue]
            cases Settings.ofFields fields with
            | error reason => exact nofun
            | ok found => exact nofun
          | null | bool | int | real | text | list => simp [Settings.ofValue]
        · simp
        · simp
        · simp

theorem Service.outcome_ne_input (levels : Nat) (settings : Settings) (reply : Reply)
    (e : InputError) :
    Service.outcome levels settings reply ≠ .error (.input e) := by
  cases reply with
  | timedOut | unreachable | httpError | broken => simp [Service.outcome]
  | response status body =>
    rw [Service.outcome]
    split
    · simp
    · split <;> simp

/-- Once a request is accepted, no input is refused. -/
theorem World.Sends.ne_input {w : World} {r : Request} {result : Except Failure Value}
    {calls : List Call} (h : w.Sends r result calls) (e : InputError) :
    result ≠ .error (.input e) := by
  cases h with
  | unsettled herror =>
    intro hinput
    rw [Except.error.inj hinput] at herror
    exact Settings.load_ne_input w.depths.settings w.disk w.homes [] e herror
  | nested | noKey => simp
  | posted => exact Service.outcome_ne_input w.depths.answer _ _ e

/-! ## Calls that are seen -/

/-- Effects of one kind are not seen by who looks for another. -/
theorem Effect.filterMap_map_eq_nil {α β : Type} {see : Effect → Option α} {make : β → Effect}
    (h : ∀ b, see (make b) = none) (bs : List β) : (bs.map make).filterMap see = [] :=
  List.filterMap_eq_nil_iff.mpr (List.forall_mem_map.mpr fun b _ => h b)

/-- Whatever is told, the calls of a run are made. -/
theorem Run.filterMap_call?_effects (verbose : Bool) (run : Run Call) :
    (run.effects verbose).filterMap Effect.call? = run.calls := by
  have htold : (Effect.telling verbose run.notices).filterMap Effect.call? = [] :=
    Effect.filterMap_map_eq_nil (fun _ => rfl) _
  have hcalls : Effect.call? ∘ Effect.call = some := rfl
  rw [Run.effects, List.filterMap_append, htold, List.filterMap_map, hcalls]
  exact List.filterMap_some

/-- **A submission makes at most one call, and only when everything before it succeeded**: exactly
when the request is accepted, the settings can be read, there is room for the headers and the key is
not empty, whatever is told.  The call carries the payload to where the settings say.  An accepted
request fails for its settings, for want of room, for its key or by the outcome of the call.  There
is always room if the limit is less than the levels there are, or if the files do not have more
names than there are levels. -/
theorem submission_posts_at_most_once (w : World) (data : Value) (verbose : Bool) :
    (((w.submit none data).effects verbose).filterMap Effect.call?).length ≤ 1 ∧
    (∀ c ∈ ((w.submit none data).effects verbose).filterMap Effect.call?, ∃ r settings key,
      Request.ofValue data = .ok r ∧ w.Ready settings key ∧ r.Fits settings w.depths.headers ∧
        c.Carries settings key (r.payload settings).value) ∧
    ((((w.submit none data).effects verbose).filterMap Effect.call?).length = 1 ↔ ∃ r settings key,
      Request.ofValue data = .ok r ∧ w.Ready settings key ∧ r.Fits settings w.depths.headers) ∧
    (∀ e, Request.ofValue data = .error e → (w.submit none data).result = .error (.input e)) ∧
    ∀ r, Request.ofValue data = .ok r →
      w.Sends r (w.submit none data).result
        (((w.submit none data).effects verbose).filterMap Effect.call?) ∧
      (∀ e, (w.submit none data).result ≠ .error (.input e)) ∧
      filesOfValue (.list (r.files.map FileRecord.toValue)) = .ok r.files ∧
      ∀ settings : Settings, settings.includeLimit < w.depths.headers ∨
        (Index.ofFiles (r.files.map (FileRecord.spelling r.files).file)).size ≤ w.depths.headers →
          r.Fits settings w.depths.headers := by
  simp only [Run.filterMap_call?_effects]
  cases haccepted : Request.ofValue data with
  | error e =>
    rw [World.submit_of_error haccepted]
    simp
  | ok r =>
    have hsends := w.sends_submitTo r
    rw [← World.submit_of_ok haccepted] at hsends
    refine ⟨hsends.length_le, fun c hc => ?_, ?_, by simp, ?_⟩
    · obtain ⟨settings, key, hcarries⟩ := hsends.carries c hc
      exact ⟨r, settings, key, rfl, hcarries⟩
    · rw [hsends.length_eq_one_iff]
      exact ⟨fun ⟨settings, key, hready⟩ => ⟨r, settings, key, rfl, hready⟩,
        fun ⟨_, settings, key, hr, hready⟩ => ⟨settings, key, Except.ok.inj hr ▸ hready⟩⟩
    · rintro r' hr'
      obtain rfl := Except.ok.inj hr'
      refine ⟨hsends, hsends.ne_input, filesFrom_toValue r.files 0, ?_⟩
      rintro settings (hlimit | hsize)
      · exact nestWithin_of_limit_lt hlimit
      · exact nestWithin_of_size_le hsize

/-- A disk with these settings on it, a key with blanks around it, and a service that does not
answer. -/
def keyedWorld (settings : String) (levels : Nat) : World :=
  { disk := Disk.ofList ["home", "user"] [("tubundle.json", .file (Utf8.encode settings))]
    homes := ⟨"/home/user", []⟩
    key := some " key\n"
    transport := fun _ => .timedOut
    depths := ⟨1, 1, levels⟩ }

def settingsTextHere : String := "\x7b\"url\": \"http://here/\", \"host\": \"here\"\x7d"

def settingsHere : Settings := { Settings.default with url := "http://here/", host := "here" }

/-- The settings are read from the disk, whatever room there is for headers. -/
theorem ready_keyedWorld {text : String} {settings : Settings} (levels : Nat)
    (h : ((keyedWorld text 0).settings none).value.toOption = some settings) :
    (keyedWorld text levels).Ready settings " key\n" := by
  have hloaded : ((keyedWorld text levels).settings none).value = .ok settings :=
    eq_ok_of_toOption h
  exact ⟨hloaded, rfl, by decide⟩

def requestInC : Request :=
  ⟨"C", none, none, [⟨"main.c", "#include \"a.h\"\nint main(void);\n"⟩, ⟨"a.h", "int a;\n"⟩]⟩

/-- A request in C as a value. -/
def valueInC (language : Text) (files : List FileRecord) : Value :=
  .object [("language", .text language), ("files", .list (files.map FileRecord.toValue))]

theorem ofValue_valueInC (language : Text) (files : List FileRecord) :
    Request.ofValue (valueInC language files) = .ok ⟨language, none, none, files⟩ := by
  have hfiles : filesOfValue (.list (files.map FileRecord.toValue)) = .ok files :=
    filesFrom_toValue files 0
  have hlookup : (Value.lookup [("language", .text language),
      ("files", .list (files.map FileRecord.toValue))]
      "files").getD (.list []) = .list (files.map FileRecord.toValue) := rfl
  rw [valueInC, Request.ofValue, hlookup, hfiles]
  rfl

theorem submission_posts_at_most_once_keyedWorld :
    (keyedWorld settingsTextHere 33).Ready settingsHere " key\n" ∧
      Request.ofValue (valueInC "C" requestInC.files) = .ok requestInC ∧
      requestInC.Fits settingsHere 33 ∧
      ∀ verbose,
        ((((keyedWorld settingsTextHere 33).submit none (valueInC "C" requestInC.files)).effects
          verbose).filterMap Effect.call?).length = 1 := by
  have hready : (keyedWorld settingsTextHere 33).Ready settingsHere " key\n" :=
    ready_keyedWorld 33 (by decide +kernel)
  have haccepted := ofValue_valueInC "C" requestInC.files
  have hsubmission := submission_posts_at_most_once (keyedWorld settingsTextHere 33)
    (valueInC "C" requestInC.files)
  obtain ⟨-, -, -, -, hrequest⟩ := hsubmission true
  obtain ⟨-, -, -, hroom⟩ := hrequest _ haccepted
  have hfits : requestInC.Fits settingsHere 33 := hroom settingsHere (Or.inl (by decide))
  refine ⟨hready, haccepted, hfits, fun verbose => ?_⟩
  obtain ⟨-, -, hposts, -⟩ := hsubmission verbose
  exact hposts.mpr ⟨requestInC, settingsHere, " key\n", haccepted, hready, hfits⟩

/-- A request for a chain of headers. -/
def deepRequest (count : Nat) : Request :=
  ⟨"c", none, none, (deepProgram count).map TextFile.record⟩

/-- There is no room for a chain of one header more than there are levels, if the limit lets it
through. -/
theorem not_fits_deepRequest {levels : Nat} {settings : Settings}
    (h : levels ≤ settings.includeLimit) :
    ¬ (deepRequest (levels + 1)).Fits settings levels := by
  show ¬ NestWithin levels (Language.tag "c") (((deepProgram (levels + 1)).map TextFile.record).map
    (FileRecord.spelling ((deepProgram (levels + 1)).map TextFile.record)).file)
    settings.includeLimit
  rw [nestWithin_tag, FileRecord.spelling_map_record, FileRecord.map_file_record]
  exact not_nestWithin_deepProgram h

/-- Settings with a limit of many levels. -/
def deepSettingsText : String := "\x7b\"max_include_depth\": 5000\x7d"

def deepSettings : Settings := { Settings.default with includeLimit := 5000 }

/-- The limit of the settings lets a chain through that there is no room for: its bundling fails,
and nothing is posted. -/
theorem submit_deepRequest {levels : Nat} (hlevels : levels ≤ 5000) :
    ∃ notices, (keyedWorld deepSettingsText levels).submit none
      (valueInC "c" (deepRequest (levels + 1)).files) =
        ⟨.error (.fault .nestedTooDeep), notices, []⟩ := by
  have hready : (keyedWorld deepSettingsText levels).Ready deepSettings " key\n" :=
    ready_keyedWorld levels (by decide +kernel)
  have hlimit : (levels : Int) ≤ deepSettings.includeLimit := by
    show (levels : Int) ≤ 5000
    omega
  obtain ⟨notices, hrun⟩ := World.submitTo_of_not_fits hready.loaded (not_fits_deepRequest hlimit)
  exact ⟨notices, (World.submit_of_ok (ofValue_valueInC "c" _)).trans hrun⟩

/-- Not every request that is accepted is posted, though the settings can be read and there is a
key: however many levels there are, up to a limit that settings may have, there is one whose
bundling fails. -/
theorem accepted_request_posted_fails :
    ¬ ∃ levels ≤ 5000, ∀ (w : World) (data : Value) (r : Request) (settings : Settings)
        (key : String),
      w.depths.headers = levels → Request.ofValue data = .ok r → w.Ready settings key →
        (w.submit none data).calls.length = 1 := by
  rintro ⟨levels, hlevels, hall⟩
  obtain ⟨notices, hsubmit⟩ := submit_deepRequest hlevels
  have hposted := hall (keyedWorld deepSettingsText levels)
    (valueInC "c" (deepRequest (levels + 1)).files) (deepRequest (levels + 1)) deepSettings " key\n"
    rfl (ofValue_valueInC "c" _) (ready_keyedWorld levels (by decide +kernel))
  rw [hsubmit] at hposted
  cases hposted

end Amalgam
