import Amalgam.Home
import Amalgam.Unit.Expansion
import Amalgam.Report.Failure

/-!
# Settings

Where and how programs are sent.  Settings are read from the first settings file that exists.  A
file that cannot be opened or is not JSON is left aside; one with a wrong value is an error.
-/

set_option autoImplicit false

namespace Amalgam

/-- The settings of a remote run. -/
structure Settings where
  url : Text
  host : Text
  timeout : Double
  version : Text
  includeLimit : Int
  deriving DecidableEq, Repr

namespace Settings

/-- The settings that hold when none are given. -/
def default : Settings :=
  { url := "https://onecompiler-apis.p.rapidapi.com/api/v1/run"
    host := "onecompiler-apis.p.rapidapi.com"
    timeout := Double.ofInt 30
    version := "latest"
    includeLimit := Context.defaultLimit }

/-- The default settings with the given fields in their place. -/
def ofFields (fields : Fields) : Except FieldError Settings := do
  let url ← Value.checkField fields "url" Value.asText default.url
  let host ← Value.checkField fields "host" Value.asText default.host
  let timeout ← Value.checkField fields "timeout" Value.asDouble default.timeout
  let version ← Value.checkField fields "version" Value.asText default.version
  let includeLimit ←
    Value.checkField fields "max_include_depth" Value.asWhole default.includeLimit
  return ⟨url, host, timeout, version, includeLimit⟩

/-- The places where settings are looked for. -/
def defaultPaths : List String := ["tubundle.json", "~/.tubundle/config.json"]

/-- Settings from the value that a file holds. -/
def ofValue (path : String) : Value → Except Failure Settings
  | .object fields => (ofFields fields).mapError fun e => .settings (.badField path e)
  | _ => .error (.settings (.notObject path))

/-- That a settings file is left aside. -/
def ignored (path why : String) : Notice :=
  .debug ("Ignoring config file " ++ path ++ ": " ++ why)

/-- Settings from the file at a path that exists, in which values nest at most `levels` deep. -/
def ofFile (levels : Nat) (disk : Disk) (path : String) : Told (Except Failure Settings) :=
  match disk.read path with
  | .error e => ⟨.ok default, [ignored path e.message]⟩
  | .ok bytes =>
    match Utf8.readText bytes with
    | .error e => ⟨.error (.fault (.undecodable e)), []⟩
    | .ok text =>
      match Json.parse levels text.toList with
      | .ok v => ⟨ofValue path v, []⟩
      | .error ⟨.tooManyDigits count, _⟩ => ⟨.error (.fault (.tooManyDigits count)), []⟩
      | .error ⟨.tooDeep container, _⟩ => ⟨.error (.fault (.tooDeep container)), []⟩
      | .error e => ⟨.ok default, [ignored path (e.message text.toList)]⟩

/-- Settings from the first of the paths that exists; no paths stand for the default ones. -/
def load (levels : Nat) (disk : Disk) (homes : Homes) (paths : List String) :
    Told (Except Failure Settings) :=
  match homes.locate disk (if paths.isEmpty then defaultPaths else paths) with
  | .error e => ⟨.error (.fault (.cannotOpen e)), []⟩
  | .ok none => ⟨.ok default, []⟩
  | .ok (some path) => ofFile levels disk path

end Settings

end Amalgam
