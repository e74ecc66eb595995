import Amalgam.Proofs.Submission

/-!
# How a remote run fails

A call of the service comes to an answer, or a failure ends it.  An answer is decoded, or it is
reported as an error of the remote run together with its status.  A failure is reported if it is a
time-out or a lost connection, and only then: any other failure ends the program as it is, as does
an answer that lies too deep.

* `Posted` — what a call comes to: an answer with any status and body, or a failure of any classes.
* `Service.Reports`, `Service.Escapes` — the errors that are reported, and the faults that are not.
* `Service.ends_iff_outcome` — the outcome of a call is decoded, reported or escapes, and which of
  them is fixed.
* `remote_run_ends`, `every_failure_reported_fails` — how a run ends, and that not every failure of
  it is reported.
-/

set_option autoImplicit false

namespace Amalgam

/-! ## What a call comes to -/

/-- What a call comes to. -/
inductive Posted where
  | answered (status : Int) (body : String)
  | raised (failure : Raised)

/-- What the service makes of it. -/
def Posted.reply : Posted → Reply
  | .answered status body => .response status body
  | .raised failure => .ofRaised failure

namespace Reply

variable {r : Raised}

theorem ofRaised_of_timeout (h : .timeout ∈ r.classes) : ofRaised r = .timedOut := by
  simp [ofRaised, FailureClass.order, h]

theorem ofRaised_of_connection (htimeout : .timeout ∉ r.classes) (h : .connection ∈ r.classes) :
    ofRaised r = .unreachable := by
  simp [ofRaised, FailureClass.order, htimeout, h]

theorem ofRaised_of_http (htimeout : .timeout ∉ r.classes) (hconnection : .connection ∉ r.classes)
    (h : .http ∈ r.classes) : ofRaised r = .httpError := by
  simp [ofRaised, FailureClass.order, htimeout, hconnection, h]

theorem ofRaised_of_other (htimeout : .timeout ∉ r.classes) (hconnection : .connection ∉ r.classes)
    (hhttp : .http ∉ r.classes) : ofRaised r = .broken r.name r.text := by
  simp [ofRaised, FailureClass.order, htimeout, hconnection, hhttp]

end Reply

namespace Service

/-! ## Errors that are reported, and faults that are not -/

/-- The error that is reported. -/
inductive Reports (levels : Nat) (settings : Settings) : Posted → RemoteError → Prop where
  | timedOut {r : Raised} (h : .timeout ∈ r.classes) :
      Reports levels settings (.raised r) (.timedOut settings.timeout)
  | unreachable {r : Raised} (htimeout : .timeout ∉ r.classes) (h : .connection ∈ r.classes) :
      Reports levels settings (.raised r) (.unreachable settings.url)
  | errorStatus {status : Int} {body : String} (h : 400 ≤ status ∧ status ≤ 599) :
      Reports levels settings (.answered status body) (statusError status body)
  | notJson {status : Int} {body : String} {e : Json.Error} (h : ¬ (400 ≤ status ∧ status ≤ 599))
      (hbody : Json.parse levels body.toList = .error e)
      (hcause : ∀ container, e.cause ≠ .tooDeep container) :
      Reports levels settings (.answered status body) (.notJson status body)

/-- The fault that ends the program. -/
inductive Escapes (levels : Nat) : Posted → Fault → Prop where
  /-- The failure counts as an HTTP error, but there is no answer to take a status from. -/
  | noAnswer {r : Raised} (htimeout : .timeout ∉ r.classes) (hconnection : .connection ∉ r.classes)
      (h : .http ∈ r.classes) : Escapes levels (.raised r) .noAnswer
  /-- The failure belongs to no class that is looked for. -/
  | other {r : Raised} (htimeout : .timeout ∉ r.classes) (hconnection : .connection ∉ r.classes)
      (hhttp : .http ∉ r.classes) : Escapes levels (.raised r) (.transport r.name r.text)
  /-- The answer lies too deep to be decoded. -/
  | tooDeep {status : Int} {body : String} {e : Json.Error} {container : Json.Container}
      (h : ¬ (400 ≤ status ∧ status ≤ 599)) (hbody : Json.parse levels body.toList = .error e)
      (hcause : e.cause = .tooDeep container) :
      Escapes levels (.answered status body) (.tooDeep container)

/-- How a call ends for the one who made it. -/
inductive Ends (levels : Nat) (settings : Settings) : Posted → Except Failure Value → Prop where
  | decoded {status : Int} {body : String} {v : Value} (h : ¬ (400 ≤ status ∧ status ≤ 599))
      (hbody : Json.parse levels body.toList = .ok v) :
      Ends levels settings (.answered status body) (.ok v)
  | reported {posted : Posted} {e : RemoteError} (h : Reports levels settings posted e) :
      Ends levels settings posted (.error (.remote e))
  | escaped {posted : Posted} {f : Fault} (h : Escapes levels posted f) :
      Ends levels settings posted (.error (.fault f))

theorem isErrorStatus_iff {status : Int} :
    isErrorStatus status = true ↔ 400 ≤ status ∧ status ≤ 599 := by
  simp only [isErrorStatus, Bool.and_eq_true, decide_eq_true_eq]
  omega

section Outcome

variable {levels : Nat} {settings : Settings} {status : Int} {body : String}

theorem outcome_of_errorStatus (h : 400 ≤ status ∧ status ≤ 599) :
    outcome levels settings (.response status body) =
      .error (.remote (statusError status body)) := by
  rw [outcome, if_pos (isErrorStatus_iff.mpr h)]

theorem outcome_of_json {v : Value} (h : ¬ (400 ≤ status ∧ status ≤ 599))
    (hbody : Json.parse levels body.toList = .ok v) :
    outcome levels settings (.response status body) = .ok v := by
  rw [outcome, if_neg (fun hstatus => h (isErrorStatus_iff.mp hstatus)), hbody]

theorem outcome_of_tooDeep {e : Json.Error} {container : Json.Container}
    (h : ¬ (400 ≤ status ∧ status ≤ 599)) (hbody : Json.parse levels body.toList = .error e)
    (hcause : e.cause = .tooDeep container) :
    outcome levels settings (.response status body) = .error (.fault (.tooDeep container)) := by
  obtain ⟨cause, offset⟩ := e
  obtain rfl : cause = .tooDeep container := hcause
  rw [outcome, if_neg (fun hstatus => h (isErrorStatus_iff.mp hstatus)), hbody]

theorem outcome_of_notJson {e : Json.Error} (h : ¬ (400 ≤ status ∧ status ≤ 599))
    (hbody : Json.parse levels body.toList = .error e)
    (hcause : ∀ container, e.cause ≠ .tooDeep container) :
    outcome levels settings (.response status body) = .error (.remote (.notJson status body)) := by
  obtain ⟨cause, offset⟩ := e
  rw [outcome, if_neg (fun hstatus => h (isErrorStatus_iff.mp hstatus)), hbody]
  cases cause with
  | tooDeep container => exact absurd rfl (hcause container)
  | _ => rfl

end Outcome

theorem Ends.outcome_eq {levels : Nat} {settings : Settings} {posted : Posted}
    {result : Except Failure Value} (h : Ends levels settings posted result) :
    outcome levels settings posted.reply = result := by
  cases h with
  | decoded h hbody => exact outcome_of_json h hbody
  | reported h =>
    cases h with
    | timedOut h => rw [Posted.reply, Reply.ofRaised_of_timeout h]; rfl
    | unreachable htimeout h => rw [Posted.reply, Reply.ofRaised_of_connection htimeout h]; rfl
    | errorStatus h => exact outcome_of_errorStatus h
    | notJson h hbody hcause => exact outcome_of_notJson h hbody hcause
  | escaped h =>
    cases h with
    | noAnswer htimeout hconnection h =>
      rw [Posted.reply, Reply.ofRaised_of_http htimeout hconnection h]; rfl
    | other htimeout hconnection hhttp =>
      rw [Posted.reply, Reply.ofRaised_of_other htimeout hconnection hhttp]; rfl
    | tooDeep h hbody hcause => exact outcome_of_tooDeep h hbody hcause

theorem exists_ends (levels : Nat) (settings : Settings) (posted : Posted) :
    ∃ result, Ends levels settings posted result := by
  cases posted with
  | answered status body =>
    by_cases hstatus : 400 ≤ status ∧ status ≤ 599
    · exact ⟨_, .reported (.errorStatus hstatus)⟩
    · cases hbody : Json.parse levels body.toList with
      | ok v => exact ⟨_, .decoded hstatus hbody⟩
      | error e =>
        by_cases hdeep : ∃ container, e.cause = .tooDeep container
        · obtain ⟨container, hcause⟩ := hdeep
          exact ⟨_, .escaped (.tooDeep hstatus hbody hcause)⟩
        · exact ⟨_, .reported (.notJson hstatus hbody fun container hcause =>
            hdeep ⟨container, hcause⟩)⟩
  | raised r =>
    by_cases htimeout : .timeout ∈ r.classes
    · exact ⟨_, .reported (.timedOut htimeout)⟩
    · by_cases hconnection : .connection ∈ r.classes
      · exact ⟨_, .reported (.unreachable htimeout hconnection)⟩
      · by_cases hhttp : .http ∈ r.classes
        · exact ⟨_, .escaped (.noAnswer htimeout hconnection hhttp)⟩
        · exact ⟨_, .escaped (.other htimeout hconnection hhttp)⟩

/-- **A call is decoded, reported or escapes, and which of them is fixed.** -/
theorem ends_iff_outcome {levels : Nat} {settings : Settings} {posted : Posted}
    {result : Except Failure Value} :
    Ends levels settings posted result ↔ outcome levels settings posted.reply = result := by
  constructor
  · intro h
    exact h.outcome_eq
  · rintro rfl
    obtain ⟨result, h⟩ := exists_ends levels settings posted
    rw [h.outcome_eq]
    exact h

/-- The error for an answer carries its status. -/
theorem Reports.status_eq {levels : Nat} {settings : Settings} {status : Int} {body : String}
    {e : RemoteError} (h : Reports levels settings (.answered status body) e) :
    e.diagnostic.status = some status := by
  cases h with
  | notJson => rfl
  | errorStatus =>
    unfold statusError
    split
    · rfl
    · split
      · rfl
      · split <;> rfl

/-! ## A run -/

end Service

/-! ## How a run ends -/

/-- **A run with a key ends in one of three ways.**  It gives the decoded answer exactly if one came
whose status is no error and which is JSON.  It reports an error exactly for a time-out, for a lost
connection, for an error status and for an answer that is not JSON, and if there is an answer, the
error carries its status.  In all other cases, which are those of `Service.Escapes` and a payload
whose files cannot be counted, a fault ends the program.  If the files can be counted, one call is
made, whatever is told about it. -/
theorem remote_run_ends (levels : Nat) (settings : Settings) (key : String) (hkey : key ≠ "")
    (transport : Call → Reply) (payload : Value) (posted : Posted)
    (hposted : transport (Service.call settings key payload) = posted.reply) :
    (∀ count, Service.fileCount payload = .ok count →
      (∀ v, (Service.run levels settings (some key) transport payload).result = .ok v ↔
        ∃ status body, posted = .answered status body ∧ ¬ (400 ≤ status ∧ status ≤ 599) ∧
          Json.parse levels body.toList = .ok v) ∧
      (∀ e, (Service.run levels settings (some key) transport payload).result = .error (.remote e) ↔
        Service.Reports levels settings posted e) ∧
      (∀ f, (Service.run levels settings (some key) transport payload).result = .error (.fault f) ↔
        Service.Escapes levels posted f) ∧
      (∀ e, (Service.run levels settings (some key) transport payload).result ≠ .error (.input e)) ∧
      (∀ e, (Service.run levels settings (some key) transport payload).result ≠
        .error (.settings e)) ∧
      ∀ verbose,
        ((Service.run levels settings (some key) transport payload).effects verbose).filterMap
        Effect.call? = [Service.call settings key payload]) ∧
    (∀ e status body, Service.Reports levels settings posted e → posted = .answered status body →
      e.diagnostic.status = some status) ∧
    ∀ f, Service.fileCount payload = .error f →
      (Service.run levels settings (some key) transport payload).result = .error (.fault f) ∧
      ∀ verbose,
        ((Service.run levels settings (some key) transport payload).effects verbose).filterMap
        Effect.call? = [] := by
  obtain ⟨huncounted, hcounted⟩ := Service.run_eq hkey levels settings transport payload
  refine ⟨fun count hcount => ?_, ?_, fun f hcount => ?_⟩
  · obtain ⟨notice, hrun⟩ := hcounted count hcount
    simp only [hrun, Run.filterMap_call?_effects, hposted, ne_eq, ← Service.ends_iff_outcome]
    refine ⟨fun v => ⟨?_, ?_⟩, fun e => ⟨?_, .reported⟩, fun f => ⟨?_, .escaped⟩, fun e => ?_,
      fun e => ?_, fun _ => trivial⟩
    · intro h
      cases h with
      | decoded hstatus hbody => exact ⟨_, _, rfl, hstatus, hbody⟩
    · rintro ⟨status, body, rfl, hstatus, hbody⟩
      exact .decoded hstatus hbody
    · intro h
      cases h with
      | reported h => exact h
    · intro h
      cases h with
      | escaped h => exact h
    · exact nofun
    · exact nofun
  · rintro e status body hreports rfl
    exact hreports.status_eq
  · simp only [huncounted f hcount, Run.filterMap_call?_effects]
    exact ⟨trivial, fun _ => trivial⟩

/-- What is sent for one file. -/
def oneFilePayload : Value :=
  .object [("language", .text "c"), ("version", .text "latest"),
    ("files", .list [.object [("name", .text "main.c"),
      ("content", .text "int main(void) \x7b return 0; \x7d\n")]])]

/-- A connection that took too long to make: both a lost connection and a time-out. -/
def lateConnection : Posted := .raised ⟨"ConnectTimeout", "", [.connection, .timeout]⟩

theorem remote_run_ends_lateConnection :
    (Service.run 1 .default (some "k") (fun _ => lateConnection.reply) oneFilePayload).result =
      .error (.remote (.timedOut Settings.default.timeout)) ∧
    (Service.run 1 .default (some "k") (fun _ => (Posted.answered 503 "").reply)
      oneFilePayload).result = .error (.remote (.serverError 503)) := by
  have hcount : Service.fileCount oneFilePayload = .ok 1 := rfl
  have hlate :=
    remote_run_ends 1 .default "k" (by decide) (fun _ => lateConnection.reply) oneFilePayload
      lateConnection rfl
  have hdown :=
    remote_run_ends 1 .default "k" (by decide)
      (fun _ => (Posted.answered 503 "").reply) oneFilePayload (.answered 503 "") rfl
  obtain ⟨-, hlate, -⟩ := hlate.1 1 hcount
  obtain ⟨-, hdown, -⟩ := hdown.1 1 hcount
  exact ⟨(hlate _).mpr (.timedOut (by decide)), (hdown _).mpr (.errorStatus (by decide))⟩

/-- Settings with an address that lacks its scheme. -/
def schemelessSettings : Settings := { Settings.default with url := "onecompiler.test/run" }

/-- The failure that such an address ends in.  It belongs to no class that is looked for. -/
def missingSchema : Posted :=
  .raised ⟨"MissingSchema", "Invalid URL 'onecompiler.test/run': No scheme supplied.", []⟩

/-- Not every failure of a run is reported: an address without a scheme ends the program as it
is. -/
theorem every_failure_reported_fails :
    ¬ ∃ levels : Nat, ∀ (settings : Settings) (key : String) (payload : Value) (posted : Posted),
      key ≠ "" →
        (∃ v, (Service.run levels settings (some key) (fun _ => posted.reply) payload).result =
          .ok v) ∨
        ∃ e, (Service.run levels settings (some key) (fun _ => posted.reply) payload).result =
          .error (.remote e) := by
  rintro ⟨levels, hall⟩
  have hfault : (Service.run levels schemelessSettings (some "k") (fun _ => missingSchema.reply)
      oneFilePayload).result = .error (.fault (.transport "MissingSchema"
        "Invalid URL 'onecompiler.test/run': No scheme supplied.")) := rfl
  rcases hall schemelessSettings "k" oneFilePayload missingSchema (by decide) with ⟨v, h⟩ | ⟨e, h⟩
  · cases hfault.symm.trans h
  · cases hfault.symm.trans h

end Amalgam
