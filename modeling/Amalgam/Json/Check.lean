import Amalgam.Json.Reader

/-!
# Checking values

A value from outside is checked before it is used.  A check gives the value in its own type, or the
reason why it is refused.
-/

set_option autoImplicit false

namespace Amalgam

/-- Why a value is refused. -/
inductive Reason where
  | missing
  | notRecord
  | notText
  /-- A text with unpaired surrogates, in the place of a number. -/
  | brokenText
  | notNumber
  | notNumberText
  | notWhole
  | notWholeText
  | fractional
  | notFinite
  | tooLarge
  deriving DecidableEq, Repr

/-- The text of a reason. -/
def Reason.message : Reason → String
  | .missing => "Field required"
  | .notRecord => "Input should be a valid dictionary or instance of SourceFile"
  | .notText => "Input should be a valid string"
  | .brokenText => "Input should be a valid string, unable to parse raw data as a unicode string"
  | .notNumber => "Input should be a valid number"
  | .notNumberText => "Input should be a valid number, unable to parse string as a number"
  | .notWhole => "Input should be a valid integer"
  | .notWholeText => "Input should be a valid integer, unable to parse string as an integer"
  | .fractional => "Input should be a valid integer, got a number with a fractional part"
  | .notFinite => "Input should be a finite number"
  | .tooLarge => "Unable to parse input string as an integer, exceeded maximum size"

/-- A field and the reason why its value is refused. -/
structure FieldError where
  field : String
  reason : Reason
  deriving DecidableEq, Repr

namespace Value

/-- A text, with or without unpaired surrogates. -/
def asText : Value → Except Reason Text
  | .text s => .ok s
  | _ => .error .notText

/-- A text or nothing. -/
def asOptionalText : Value → Except Reason (Option Text)
  | .null => .ok none
  | v => v.asText.map some

/-- A number.  A truth value is one or zero. -/
def asDouble : Value → Except Reason Double
  | .bool b => .ok (Double.ofInt (if b then 1 else 0))
  | .int i =>
    match Double.ofInt i with
    | .infinite _ => .error .notNumber
    | x => .ok x
  | .real x => .ok x
  | .text (.proper s) =>
    match doubleOfText? s with
    | some x => .ok x
    | none => .error .notNumberText
  | .text (.broken ..) => .error .brokenText
  | _ => .error .notNumber

/-- The whole number that a double is.  It must fit in 64 bits. -/
def wholeOfDouble (x : Double) : Except Reason Int :=
  match x with
  | .nan => .error .notFinite
  | .infinite _ => .error .notFinite
  | .finite .. =>
    match x.toInt? with
    | none => .error .fractional
    | some i => if -Int.pow 2 63 < i ∧ i < Int.pow 2 63 then .ok i else .error .tooLarge

/-- A whole number.  A truth value is one or zero. -/
def asWhole : Value → Except Reason Int
  | .bool b => .ok (if b then 1 else 0)
  | .int i => .ok i
  | .real x => wholeOfDouble x
  | .text (.proper s) =>
    match wholeOfText s with
    | .ok i => .ok i
    | .error .unreadable => .error .notWholeText
    | .error .tooLong => .error .tooLarge
  | .text (.broken ..) => .error .brokenText
  | _ => .error .notWhole

/-- The checked value of a field, or the default of a field that is not given. -/
def checkField {α : Type} (fields : Fields) (name : String)
    (check : Value → Except Reason α) (default : α) : Except FieldError α :=
  match lookup fields name with
  | none => .ok default
  | some v => (check v).mapError fun r => ⟨name, r⟩

/-- The checked value of a field that must be given. -/
def requireField {α : Type} (fields : Fields) (name : String)
    (check : Value → Except Reason α) : Except Reason α :=
  match lookup fields name with
  | none => .error .missing
  | some v => check v

end Value

end Amalgam
