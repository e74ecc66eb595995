import Amalgam.Remote.Payload
import Amalgam.Remote.Service

/-!
# Submissions

A request is checked, its payload is made with the settings in force, and the payload is handed to a
backend: the remote service, or one that only notes what it is given.
-/

set_option autoImplicit false

namespace Amalgam

/-- How deep things can nest before the program runs out of room. -/
structure Depths where
  /-- Values inside each other in a settings file. -/
  settings : Nat
  /-- Values inside each other in an answer. -/
  answer : Nat
  /-- Headers that are inlined inside each other. -/
  headers : Nat
  deriving DecidableEq, Repr

/-- What a run can see of its surroundings. -/
structure World where
  disk : Disk
  homes : Homes
  key : Option String
  transport : Call → Reply
  depths : Depths

namespace World

/-- The settings in force: those given, or those found on the disk. -/
def settings (w : World) (given : Option Settings) : Told (Except Failure Settings) :=
  match given with
  | some c => ⟨.ok c, []⟩
  | none => Settings.load w.depths.settings w.disk w.homes []

/-- Prepares a request and hands its payload to a backend. -/
def submitTo {α : Type} (w : World) (given : Option Settings) (backend : Settings → Value → Run α)
    (r : Request) : Run α :=
  let loaded := w.settings given
  match loaded.value with
  | .error e => ⟨.error e, loaded.notices, []⟩
  | .ok settings =>
    let built := r.payloadWithin w.depths.headers settings
    match built.value with
    | .error f => ⟨.error (.fault f), loaded.notices ++ built.notices, []⟩
    | .ok payload =>
      let run := backend settings payload
      ⟨run.result, loaded.notices ++ built.notices ++ run.notices, run.calls⟩

/-- The remote service as a backend. -/
def service (w : World) (settings : Settings) (payload : Value) : Run Call :=
  Service.run w.depths.answer settings w.key w.transport payload

/-- Checks a value as a request and hands its payload to a backend. -/
def submitValueTo {α : Type} (w : World) (given : Option Settings)
    (backend : Settings → Value → Run α) (data : Value) : Run α :=
  match Request.ofValue data with
  | .error e => ⟨.error (.input e), [], []⟩
  | .ok r => w.submitTo given backend r

/-- Runs a request on the remote service. -/
def submit (w : World) (given : Option Settings) (data : Value) : Run Call :=
  w.submitValueTo given w.service data

end World

/-- A backend that sends nothing and always has the same result. -/
def fixedBackend (result : Value) (_ : Settings) (payload : Value) : Run Value :=
  ⟨.ok result, [], [payload]⟩

end Amalgam
