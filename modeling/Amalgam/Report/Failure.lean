import Amalgam.Disk
import Amalgam.Remote.Request

/-!
# Failures

A run ends with a result, with a failure that is reported, or with a *fault*: a failure that nothing
takes care of and that ends the program as it is.
-/

set_option autoImplicit false

namespace Amalgam

/-- A failure that is not reported. -/
inductive Fault where
  /-- A file is not UTF-8. -/
  | undecodable (error : Utf8.Error)
  | cannotOpen (error : OpenError)
  /-- A whole number in a settings file has too many digits. -/
  | tooManyDigits (count : Nat)
  /-- A value in a settings file or in an answer lies too deep. -/
  | tooDeep (container : Json.Container)
  /-- A header has to be inlined inside more others than there is room for. -/
  | nestedTooDeep
  /-- A text with unpaired surrogates is written to standard output. -/
  | unwritable (error : Text.Unwritable)
  /-- The compiler version is asked for without a value. -/
  | noVersion
  /-- The transport failed in a way that is neither a time-out nor a lost connection. -/
  | transport (name text : String)
  /-- The transport reported an HTTP error and gave no answer. -/
  | noAnswer
  /-- A value of this kind has no fields. -/
  | noFields (kind : String)
  /-- A value of this kind has no size. -/
  | noSize (kind : String)
  /-- A value of this kind is written where a text is needed. -/
  | notText (kind : String)
  deriving DecidableEq, Repr

/-- The text of a fault. -/
def Fault.message : Fault → String
  | .undecodable e => e.message
  | .cannotOpen e => e.message
  | .tooManyDigits count => (Json.Cause.tooManyDigits count).message
  | .tooDeep container => (Json.Cause.tooDeep container).message
  | .nestedTooDeep => "maximum recursion depth exceeded"
  | .unwritable e => e.message
  | .noVersion => "version: " ++ Reason.notText.message
  | .transport _ text => text
  | .noAnswer => "cannot access local variable 'resp' where it is not associated with a value"
  | .noFields kind => "'" ++ kind ++ "' object has no attribute 'get'"
  | .noSize kind => "object of type '" ++ kind ++ "' has no len()"
  | .notText kind => "write() argument must be str, not " ++ kind

/-- Why the settings are refused. -/
inductive SettingsError where
  /-- The file holds no object. -/
  | notObject (path : String)
  | badField (path : String) (error : FieldError)
  deriving DecidableEq, Repr

/-- The report of a settings error. -/
def SettingsError.diagnostic : SettingsError → Diagnostic
  | .notObject path =>
    { kind := .settings
      message := "Config file must contain a JSON object"
      file := some path }
  | .badField path e =>
    { kind := .settings
      message := "Invalid value for '" ++ e.field ++ "': " ++ e.reason.message
      file := some path
      hint := some "Fix or remove the entry to use the default" }

/-- The environment variable with the key of the remote service. -/
def keyVariable : String := "ONECOMPILER_API_KEY"

/-- Why a remote run has no result. -/
inductive RemoteError where
  | missingKey
  | timedOut (timeout : Double)
  | unreachable (url : Text)
  | keyRejected (status : Int)
  | rateLimited (status : Int)
  | serverError (status : Int)
  | refused (status : Int) (body : String)
  | notJson (status : Int) (body : String)
  | unknownBackend (name : String)
  deriving DecidableEq, Repr

/-- The report of a failed remote run. -/
def RemoteError.diagnostic : RemoteError → Diagnostic
  | .missingKey =>
    { kind := .remote
      message := "Missing " ++ keyVariable ++ "."
      hint := some ("Set it with: export " ++ keyVariable ++ "='your-key-here'") }
  | .timedOut timeout =>
    { kind := .remote
      message := "Request timed out (" ++ timeout.durationText ++ "s)."
      hint := some "Try again or raise 'timeout' in tubundle.json" }
  | .unreachable url =>
    { kind := .remote
      message := "Failed to connect to " ++ url.display ++ "."
      hint := some "Check your internet connection and the configured url" }
  | .keyRejected status =>
    { kind := .remote
      message := "The API key was rejected."
      hint := some ("Check the " ++ keyVariable ++ " environment variable")
      status := some status }
  | .rateLimited status =>
    { kind := .remote
      message := "Rate limit exceeded."
      hint := some "Wait a minute before retrying"
      status := some status }
  | .serverError status =>
    { kind := .remote
      message := "Server error (" ++ toString status ++ "). The service may be down."
      hint := some "Try again in a moment"
      status := some status }
  | .refused status body =>
    { kind := .remote
      message := "API error (" ++ toString status ++ "): " ++ body
      status := some status }
  | .notJson status body =>
    { kind := .remote
      message := "Response is not JSON: " ++ String.ofList (body.toList.take 200)
      status := some status }
  | .unknownBackend name =>
    { kind := .remote
      message := "Unknown backend '" ++ name ++ "'"
      hint := some "Use 'onecompiler'" }

/-- Whatever keeps a run from having a result. -/
inductive Failure where
  | input (error : InputError)
  | settings (error : SettingsError)
  | remote (error : RemoteError)
  | fault (fault : Fault)
  deriving DecidableEq, Repr

/-- The report of a failure that has one. -/
def Failure.diagnostic? : Failure → Option Diagnostic
  | .input e => some e.diagnostic
  | .settings e => some e.diagnostic
  | .remote e => some e.diagnostic
  | .fault _ => none

end Amalgam
