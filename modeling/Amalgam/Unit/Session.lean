import Amalgam.Unit.Expansion

/-!
# Sessions

A session expands texts one after another.  It holds the contexts that were entered and not left
again.  All of them share the headers inlined so far and the limit; each has a depth and a chain of
its own.
-/

set_option autoImplicit false

namespace Amalgam

/-- The current context and those around it, innermost first; only the current one's `inlined`
counts. -/
structure Session where
  current : Context
  outer : List Context

namespace Session

/-- A step in a session. -/
inductive Move where
  /-- Expand the text of a file. -/
  | expand (origin code : String)
  /-- Enter a header. -/
  | enter (key : String)
  /-- Leave the header entered last. -/
  | leave
  /-- Start anew. -/
  | restart (ctx : Context)

def start (ctx : Context) : Session := ⟨ctx, []⟩

/-- The session after a step, and the rows of an expansion. -/
def step (index : Index) (s : Session) : Move → Session × Option (List Row)
  | .expand origin code =>
    let e := expand index s.current origin code
    (⟨{ s.current with inlined := e.inlined }, s.outer⟩, some e.rows)
  | .enter key => (⟨s.current.enter key, s.current :: s.outer⟩, none)
  | .leave =>
    match s.outer with
    | [] => (s, none)
    | ctx :: outer => (⟨{ ctx with inlined := s.current.inlined }, outer⟩, none)
  | .restart ctx => (start ctx, none)

/-- The session after each step, with the rows of expansions. -/
def run (index : Index) (s : Session) : List Move → List (Context × Option (List Row))
  | [] => []
  | m :: moves =>
    let r := s.step index m
    (r.1.current, r.2) :: run index r.1 moves

end Session

end Amalgam
