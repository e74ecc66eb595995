import Amalgam.Number.Layout
import Amalgam.Text.CodePoint

/-!
# JSON values

Whole numbers are kept apart from other numbers, and an object keeps its fields in the order in
which their names first occur.  Names and texts may hold unpaired surrogates.

* `Value.kind` names the kind of a value in messages.
* `Value.isEmptyLike` holds of the values that count as "not given".
* `Value.display` is the text of a value in messages; inside a list or an object, texts are quoted.
-/

set_option autoImplicit false

namespace Amalgam

/-- A JSON value. -/
inductive Value where
  | null
  | bool (b : Bool)
  | int (i : Int)
  | real (x : Double)
  | text (s : Text)
  | list (items : List Value)
  | object (fields : List (Text × Value))

/-- The fields of an object. -/
abbrev Fields := List (Text × Value)

namespace Value

/-- The value of a field; names are unique in an object that was read. -/
def lookup (fields : Fields) (name : String) : Option Value :=
  (fields.find? fun f => f.1 == .proper name).map (·.2)

/-- Sets a field: a new name goes to the end, a known one keeps its place. -/
def setField (name : Text) (v : Value) : Fields → Fields
  | [] => [(name, v)]
  | f :: fs => if f.1 == name then (name, v) :: fs else f :: setField name v fs

/-- A field of an object. -/
def field? : Value → String → Option Value
  | .object fields, name => lookup fields name
  | _, _ => none

/-- The kind of a value, as messages name it. -/
def kind : Value → String
  | .null => "NoneType"
  | .bool _ => "bool"
  | .int _ => "int"
  | .real _ => "float"
  | .text _ => "str"
  | .list _ => "list"
  | .object _ => "dict"

/-- Nothing, false, zero and whatever has no parts. -/
def isEmptyLike : Value → Bool
  | .null => true
  | .bool b => !b
  | .int i => i == 0
  | .real x => x.isZero
  | .text s => s.isEmpty
  | .list items => items.isEmpty
  | .object fields => fields.isEmpty

/-- The number of characters, items or fields. -/
def size? : Value → Option Nat
  | .text s => some s.length
  | .list items => some items.length
  | .object fields => some fields.length
  | _ => none

mutual

/-- The text of a value that stands inside another one. -/
def inner : Value → String
  | .null => "None"
  | .bool b => if b then "True" else "False"
  | .int i => toString i
  | .real x => x.text
  | .text s => s.quoted
  | .list items => "[" ++ ", ".intercalate (innerItems items) ++ "]"
  | .object fields => "\x7b" ++ ", ".intercalate (innerFields fields) ++ "\x7d"

def innerItems : List Value → List String
  | [] => []
  | v :: vs => inner v :: innerItems vs

def innerFields : List (Text × Value) → List String
  | [] => []
  | (name, v) :: fs => (name.quoted ++ ": " ++ inner v) :: innerFields fs

end

/-- A value as text. -/
def toText : Value → Text
  | .text s => s
  | v => .proper v.inner

/-- The text of a value in messages. -/
def display (v : Value) : String := v.toText.display

/-- The text of a value, and no text for one that counts as not given. -/
def displayOrEmpty (v : Value) : String := if v.isEmptyLike then "" else v.display

end Value

end Amalgam
