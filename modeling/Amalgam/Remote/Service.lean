import Amalgam.Remote.Settings

/-!
# The remote service

A program is sent to the service in one call.  What the service or the transport replies is turned
into a result or a failure.
-/

set_option autoImplicit false

namespace Amalgam

/-- A call of the service. -/
structure Call where
  url : Text
  payload : Value
  headers : List (String × Text)
  timeout : Double

/-- What comes of a call. -/
inductive Reply where
  | response (status : Int) (body : String)
  | timedOut
  | unreachable
  /-- An HTTP error without an answer. -/
  | httpError
  /-- Another failure of the transport. -/
  | broken (name text : String)

/-- The failures of a call that are looked for. -/
inductive FailureClass where
  | timeout
  | connection
  | http
  deriving DecidableEq, Repr

/-- The order in which failures are looked for. -/
def FailureClass.order : List FailureClass := [.timeout, .connection, .http]

/-- A failure that ends a call.  It may belong to several of the classes that are looked for, or to
none. -/
structure Raised where
  name : String
  text : String
  classes : List FailureClass
  deriving DecidableEq, Repr

/-- What comes of a call that a failure ends: the first class that it belongs to decides. -/
def Reply.ofRaised (r : Raised) : Reply :=
  match FailureClass.order.find? fun c => r.classes.contains c with
  | some .timeout => .timedOut
  | some .connection => .unreachable
  | some .http => .httpError
  | none => .broken r.name r.text

/-- The end of a run: its result or failure, what was told and which calls were made. -/
structure Run (α : Type) where
  result : Except Failure Value
  notices : List Notice
  calls : List α

/-- What can be seen of a program while it runs. -/
inductive Effect where
  /-- A text on standard output. -/
  | out (text : String)
  /-- A text on standard error. -/
  | err (text : Text)
  | call (c : Call)

namespace Effect

def out? : Effect → Option String
  | .out text => some text
  | _ => none

/-- A text on standard error as it is shown. -/
def err? : Effect → Option String
  | .err text => some text.display
  | _ => none

def call? : Effect → Option Call
  | .call c => some c
  | _ => none

/-- Notices that are shown. -/
def telling (verbose : Bool) (notices : List Notice) : List Effect :=
  (Notice.shown verbose notices).map .err

end Effect

/-- A run as it is seen: what is told comes before the calls. -/
def Run.effects (verbose : Bool) (r : Run Call) : List Effect :=
  Effect.telling verbose r.notices ++ r.calls.map .call

namespace Service

/-- Whether a status reports an error. -/
def isErrorStatus (status : Int) : Bool := 400 ≤ status && status < 600

/-- The failure that an error status stands for. -/
def statusError (status : Int) (body : String) : RemoteError :=
  if status = 401 ∨ status = 403 then .keyRejected status
  else if status = 429 then .rateLimited status
  else if 500 ≤ status then .serverError status
  else .refused status body

/-- The result of a call; values nest at most `levels` deep in an answer. -/
def outcome (levels : Nat) (settings : Settings) : Reply → Except Failure Value
  | .timedOut => .error (.remote (.timedOut settings.timeout))
  | .unreachable => .error (.remote (.unreachable settings.url))
  | .httpError => .error (.fault .noAnswer)
  | .broken name text => .error (.fault (.transport name text))
  | .response status body =>
    if isErrorStatus status then .error (.remote (statusError status body))
    else
      match Json.parse levels body.toList with
      | .ok v => .ok v
      | .error ⟨.tooDeep container, _⟩ => .error (.fault (.tooDeep container))
      | .error _ => .error (.remote (.notJson status body))

/-- The number of files in a payload. -/
def fileCount : Value → Except Fault Nat
  | .object fields =>
    let files := (Value.lookup fields "files").getD (.list [])
    match files.size? with
    | some n => .ok n
    | none => .error (.noSize files.kind)
  | v => .error (.noFields v.kind)

/-- The call for a payload. -/
def call (settings : Settings) (key : String) (payload : Value) : Call :=
  { url := settings.url
    payload := payload
    headers :=
      [("Content-Type", "application/json"),
       ("X-RapidAPI-Key", .proper (String.ofList (trimBlanks key.toList))),
       ("X-RapidAPI-Host", settings.host)]
    timeout := settings.timeout }

/-- Sends a payload.  Without a key nothing is sent. -/
def run (levels : Nat) (settings : Settings) (key : Option String) (transport : Call → Reply)
    (payload : Value) : Run Call :=
  let key := key.getD ""
  if key.isEmpty then ⟨.error (.remote .missingKey), [], []⟩
  else
    match fileCount payload with
    | .error fault => ⟨.error (.fault fault), [], []⟩
    | .ok count =>
      let c := call settings key payload
      ⟨outcome levels settings (transport c),
        [⟨.debug, .proper "POST " ++ settings.url ++
          .proper (" (" ++ toString count ++ " file(s))")⟩],
        [c]⟩

/-- The settings of the service with this name. -/
def select (name : String) (settings : Option Settings) : Except RemoteError Settings :=
  if name == "onecompiler" then .ok (settings.getD Settings.default)
  else .error (.unknownBackend name)

end Service

end Amalgam
