import Amalgam.Json.Value
import Amalgam.Number.Numeral

/-!
# Reading JSON

The reader accepts JSON text and, in the place of a number, `NaN`, `Infinity` and `-Infinity`.
Where it refuses a text it tells why and at which character.

The reader goes only so many values deep, which is up to the caller; a value that lies deeper ends
the reading.

The functions take a bound on the number of steps.  Every call that uses up a step has also used up
a character or ends the reading, so `parse` never runs out of steps.
-/

set_option autoImplicit false

namespace Amalgam.Json

/-- What holds other values. -/
inductive Container where
  | object
  | list
  deriving DecidableEq, Repr

/-- Why a text is not read. -/
inductive Cause where
  | byteOrderMark
  | expectedValue
  | expectedName
  | expectedColon
  | expectedComma
  | extraData
  | unterminatedString
  | controlCharacter
  | badEscape
  | badUnicodeEscape
  /-- A whole number with more digits than the reader converts. -/
  | tooManyDigits (count : Nat)
  /-- A value that lies deeper than the reader goes. -/
  | tooDeep (container : Container)
  deriving DecidableEq, Repr

/-- A cause and the character where it shows. -/
structure Error where
  cause : Cause
  offset : Nat
  deriving DecidableEq, Repr

/-- The text of a cause. -/
def Cause.message : Cause → String
  | .byteOrderMark => "Unexpected UTF-8 BOM (decode using utf-8-sig)"
  | .expectedValue => "Expecting value"
  | .expectedName => "Expecting property name enclosed in double quotes"
  | .expectedColon => "Expecting ':' delimiter"
  | .expectedComma => "Expecting ',' delimiter"
  | .extraData => "Extra data"
  | .unterminatedString => "Unterminated string starting at"
  | .controlCharacter => "Invalid control character at"
  | .badEscape => "Invalid \\escape"
  | .badUnicodeEscape => "Invalid \\uXXXX escape"
  | .tooManyDigits count =>
    "Exceeds the limit (" ++ toString digitLimit ++ " digits) for integer string conversion: " ++
      "value has " ++ toString count ++
      " digits; use sys.set_int_max_str_digits() to increase the limit"
  | .tooDeep container =>
    "maximum recursion depth exceeded while decoding a JSON " ++
      (match container with | .object => "object" | .list => "array") ++ " from a unicode string"

/-- The text of an error, with line and column counted from one. -/
def Error.message (e : Error) (input : List Char) : String :=
  let before := input.take e.offset
  let line := before.count '\n' + 1
  let column := (before.reverse.takeWhile (· != '\n')).length + 1
  e.cause.message ++ ": line " ++ toString line ++ " column " ++ toString column ++
    " (char " ++ toString e.offset ++ ")"

/-- What is still to be read, and how many characters were read before it. -/
structure Cursor where
  offset : Nat
  rest : List Char

/-- Leaves out the next `n` characters. -/
def Cursor.skip (c : Cursor) (n : Nat) : Cursor := ⟨c.offset + n, c.rest.drop n⟩

def isJsonSpace (c : Char) : Bool := c == ' ' || c == '\t' || c == '\n' || c == '\r'

/-- Leaves out white space. -/
def Cursor.skipSpace (c : Cursor) : Cursor := c.skip (c.rest.takeWhile isJsonSpace).length

def fail {α : Type} (cause : Cause) (offset : Nat) : Except Error (α × Cursor) :=
  .error ⟨cause, offset⟩

/-! ## Strings -/

/-- The value of a hexadecimal digit. -/
def hexValue? (c : Char) : Option Nat :=
  if '0' ≤ c ∧ c ≤ '9' then some (c.toNat - '0'.toNat)
  else if 'a' ≤ c ∧ c ≤ 'f' then some (c.toNat - 'a'.toNat + 10)
  else if 'A' ≤ c ∧ c ≤ 'F' then some (c.toNat - 'A'.toNat + 10)
  else none

/-- The number that four hexadecimal digits write; one more character must follow them. -/
def hex4? : List Char → Option Nat
  | a :: b :: c :: d :: _ :: _ => do
    let a ← hexValue? a
    let b ← hexValue? b
    let c ← hexValue? c
    let d ← hexValue? d
    return ((a * 16 + b) * 16 + c) * 16 + d
  | _ => none

def isHighSurrogate (n : Nat) : Bool := 0xD800 ≤ n && n < 0xDC00

def isLowSurrogate (n : Nat) : Bool := 0xDC00 ≤ n && n < 0xE000

/-- The code point `n`. -/
def codePoint (n : Nat) : CodePoint :=
  if h : 0xD800 ≤ n ∧ n < 0xE000 then .surrogate ⟨n - 0xD800, by omega⟩ else .char (Char.ofNat n)

/-- The character of a two-character escape. -/
def simpleEscape? : Char → Option Char
  | '"' => some '"'
  | '\\' => some '\\'
  | '/' => some '/'
  | 'b' => some '\x08'
  | 'f' => some '\x0c'
  | 'n' => some '\n'
  | 'r' => some '\r'
  | 't' => some '\t'
  | _ => none

/-- Reads an escape whose first four digits stand at `c`, after a backslash and a `u`.  Two escapes
that are a surrogate pair are one character. -/
def unicodeEscape (c : Cursor) : Except Error (CodePoint × Cursor) :=
  match hex4? c.rest with
  | none => fail .badUnicodeEscape (c.offset - 1)
  | some n =>
    let after := c.skip 4
    match isHighSurrogate n, after.rest with
    | true, '\\' :: 'u' :: more =>
      if more.length ≤ 4 then .ok (codePoint n, after)
      else
        match hex4? more with
        | none => fail .badUnicodeEscape (after.offset + 1)
        | some m =>
          if isLowSurrogate m then
            .ok (codePoint (0x10000 + (n - 0xD800) * 0x400 + (m - 0xDC00)), after.skip 6)
          else .ok (codePoint n, after)
    | _, _ => .ok (codePoint n, after)

/-- Reads the rest of a string that was opened at `start`; `done` is what was read of it, last
code point first. -/
def stringBody (start : Nat) :
    (steps : Nat) → (done : List CodePoint) → Cursor → Except Error (Text × Cursor)
  | 0, _, _ => fail .unterminatedString start
  | steps + 1, done, c =>
    match c.rest with
    | [] => fail .unterminatedString start
    | '"' :: _ => .ok (Text.ofPoints done.reverse, c.skip 1)
    | '\\' :: [] => fail .unterminatedString start
    | '\\' :: 'u' :: _ => do
      let (x, c) ← unicodeEscape (c.skip 2)
      stringBody start steps (x :: done) c
    | '\\' :: x :: _ =>
      match simpleEscape? x with
      | none => fail .badEscape c.offset
      | some y => stringBody start steps (.char y :: done) (c.skip 2)
    | x :: _ =>
      if x.toNat < 0x20 then fail .controlCharacter c.offset
      else stringBody start steps (.char x :: done) (c.skip 1)

/-! ## Numbers -/

/-- The digits of a fraction, if a point with at least one digit stands here. -/
def fractionDigits : List Char → List Char
  | '.' :: rest => rest.takeWhile Char.isDigit
  | _ => []

/-- Reads a number whose digits start at `c`. -/
def unsignedNumber (negative : Bool) (c : Cursor) : Option (Except Cause (Value × Cursor)) :=
  let whole :=
    match c.rest with
    | '0' :: _ => ['0']
    | rest => rest.takeWhile Char.isDigit
  if whole.isEmpty then none
  else
    let c := c.skip whole.length
    let fraction := fractionDigits c.rest
    let afterFraction := if fraction.isEmpty then c else c.skip (fraction.length + 1)
    match splitExponent? afterFraction.rest with
    | some (e, rest) =>
      some (.ok (.real (Double.ofDecimal negative (digitsValue (whole ++ fraction))
        (e - fraction.length)), afterFraction.skip (afterFraction.rest.length - rest.length)))
    | none =>
      if fraction.isEmpty then
        if digitLimit < whole.length then some (.error (.tooManyDigits whole.length))
        else
          let n : Int := (digitsValue whole : Nat)
          some (.ok (.int (if negative then -n else n), c))
      else
        some (.ok (.real (Double.ofDecimal negative (digitsValue (whole ++ fraction))
          (-(fraction.length : Int))), afterFraction))

/-- Reads a number. -/
def number (c : Cursor) : Except Error (Value × Cursor) :=
  let result :=
    match c.rest with
    | '-' :: _ => unsignedNumber true (c.skip 1)
    | _ => unsignedNumber false c
  match result with
  | none => fail .expectedValue c.offset
  | some (.error cause) => fail cause c.offset
  | some (.ok r) => .ok r

/-! ## Values -/

/-- The words that stand for a value. -/
def words : List (String × Value) :=
  [("null", .null), ("true", .bool true), ("false", .bool false), ("NaN", .real .nan),
   ("Infinity", .real (.infinite false)), ("-Infinity", .real (.infinite true))]

/-- The word that stands here. -/
def word? (cs : List Char) : Option (Nat × Value) :=
  (words.find? fun w => w.1.toList.isPrefixOf cs).map fun w => (w.1.length, w.2)

mutual

/-- Reads a value in which others may nest `levels` deep. -/
def value : (steps levels : Nat) → Cursor → Except Error (Value × Cursor)
  | 0, _, c => fail .expectedValue c.offset
  | steps + 1, levels, c =>
    match c.rest with
    | '"' :: _ => do
      let (s, c) ← stringBody c.offset c.rest.length [] (c.skip 1)
      return (.text s, c)
    | '\x7b' :: _ =>
      let inside := (c.skip 1).skipSpace
      match levels, inside.rest with
      | 0, _ => fail (.tooDeep .object) c.offset
      | _, '\x7d' :: _ => .ok (.object [], inside.skip 1)
      | levels + 1, _ => fields steps levels [] inside
    | '[' :: _ =>
      let inside := (c.skip 1).skipSpace
      match levels, inside.rest with
      | 0, _ => fail (.tooDeep .list) c.offset
      | _, ']' :: _ => .ok (.list [], inside.skip 1)
      | levels + 1, _ => items steps levels [] inside
    | cs =>
      match word? cs with
      | some (size, v) => .ok (v, c.skip size)
      | none => number c

/-- Reads the fields of an object up to its end; `done` are those before. -/
def fields : (steps levels : Nat) → (done : Fields) → Cursor → Except Error (Value × Cursor)
  | 0, _, _, c => fail .expectedName c.offset
  | steps + 1, levels, done, c =>
    match c.rest with
    | '"' :: _ => do
      let (name, c) ← stringBody c.offset c.rest.length [] (c.skip 1)
      let c := c.skipSpace
      match c.rest with
      | ':' :: _ =>
        let (v, c) ← value steps levels (c.skip 1).skipSpace
        let done := Value.setField name v done
        let c := c.skipSpace
        match c.rest with
        | '\x7d' :: _ => return (.object done, c.skip 1)
        | ',' :: _ => fields steps levels done (c.skip 1).skipSpace
        | _ => fail .expectedComma c.offset
      | _ => fail .expectedColon c.offset
    | _ => fail .expectedName c.offset

/-- Reads the items of a list up to its end; `done` are those before, last one first. -/
def items : (steps levels : Nat) → (done : List Value) → Cursor → Except Error (Value × Cursor)
  | 0, _, _, c => fail .expectedValue c.offset
  | steps + 1, levels, done, c => do
    let (v, c) ← value steps levels c
    let c := c.skipSpace
    match c.rest with
    | ']' :: _ => return (.list (v :: done).reverse, c.skip 1)
    | ',' :: _ => items steps levels (v :: done) (c.skip 1).skipSpace
    | _ => fail .expectedComma c.offset

end

/-- Reads a text that is one JSON value, in which others nest at most `levels` deep. -/
def parse (levels : Nat) (input : List Char) : Except Error Value :=
  match input with
  | '\ufeff' :: _ => .error ⟨.byteOrderMark, 0⟩
  | _ => do
    let (v, c) ← value (2 * input.length + 2) levels (Cursor.mk 0 input).skipSpace
    let c := c.skipSpace
    if c.rest.isEmpty then .ok v else .error ⟨.extraData, c.offset⟩

end Amalgam.Json
