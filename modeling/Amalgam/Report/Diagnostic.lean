/-!
# Diagnostics

A failure that is reported has a kind, a message and, if they are known, a file and a hint.  A
failure of a remote run has the status of the answer in the place of a file.
-/

set_option autoImplicit false

namespace Amalgam

/-- What a failure is about. -/
inductive DiagnosticKind where
  | general
  | input
  | settings
  | remote
  deriving DecidableEq, Repr

/-- What a diagnostic may tell beside its message. -/
inductive Detail where
  | file
  | hint
  | status
  deriving DecidableEq, Repr

namespace DiagnosticKind

/-- The heading of a report. -/
def title : DiagnosticKind → String
  | .general => "Bundle Error"
  | .input => "Invalid Input"
  | .settings => "Invalid Configuration"
  | .remote => "Remote Run Failed"

/-- Whether diagnostics of the kind have the detail. -/
def admits : DiagnosticKind → Detail → Bool
  | _, .hint => true
  | .remote, .file => false
  | _, .file => true
  | .remote, .status => true
  | _, .status => false

end DiagnosticKind

/-- A failure that is reported. -/
structure Diagnostic where
  kind : DiagnosticKind
  message : String
  file : Option String := none
  hint : Option String := none
  status : Option Int := none
  deriving DecidableEq, Repr

namespace Diagnostic

/-- A text with something in front of it and behind it, or nothing if there is none. -/
def framed (before : String) (text : Option String) (after : String) : String :=
  match text with
  | none => ""
  | some s => if s.isEmpty then "" else before ++ s ++ after

/-- The report. -/
def render (d : Diagnostic) : String :=
  d.kind.title ++ framed " in " d.file "" ++ ":\n" ++ "   " ++ d.message ++ "\n" ++
    framed "   hint: " d.hint "\n"

end Diagnostic

end Amalgam
