import Amalgam.Text.CodePoint

/-!
# Notices

What is told about a run beside its result.  Debug notices are shown only when asked for.
-/

set_option autoImplicit false

namespace Amalgam

/-- How important a notice is. -/
inductive Level where
  | debug
  | info
  | warning
  deriving DecidableEq, Repr

/-- A line for whoever watches the run. -/
structure Notice where
  level : Level
  message : Text
  deriving DecidableEq, Repr

namespace Notice

def debug (message : String) : Notice := ⟨.debug, .proper message⟩

def info (message : String) : Notice := ⟨.info, .proper message⟩

def warning (message : String) : Notice := ⟨.warning, .proper message⟩

/-- The coloured label of a level. -/
def label : Level → String
  | .debug => "\x1b[94mDEBUG:\x1b[0m "
  | .info => "\x1b[92m\x1b[1mINFO:\x1b[0m "
  | .warning => "\x1b[93m\x1b[1mWARN:\x1b[0m "

/-- The line of a notice. -/
def render (n : Notice) : Text := .proper (label n.level) ++ n.message ++ .proper "\n"

/-- The lines that are shown of notices, in order. -/
def shown (verbose : Bool) (notices : List Notice) : List Text :=
  (notices.filter fun n => n.level != .debug || verbose).map render

/-- Notices as standard error shows them. -/
def transcript (verbose : Bool) (notices : List Notice) : String :=
  String.join ((shown verbose notices).map Text.display)

end Notice

/-- A value together with what is told about it. -/
structure Told (α : Type) where
  value : α
  notices : List Notice

/-- What can be asked of a console. -/
inductive ConsoleStep where
  | showDebug (on : Bool)
  | tell (notice : Notice)

/-- What a console shows after each step; it remembers whether debug notices are wanted. -/
def consoleOutput (verbose : Bool) : List ConsoleStep → List String
  | [] => []
  | .showDebug on :: steps => "" :: consoleOutput on steps
  | .tell notice :: steps => Notice.transcript verbose [notice] :: consoleOutput verbose steps

end Amalgam
