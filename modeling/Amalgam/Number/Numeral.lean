import Amalgam.Number.Double
import Amalgam.Text.Blank

/-!
# Numbers written as text

Settings may give a number as text.  A text is read as it stands first; only if it cannot be read is
it tidied and read again.

* `doubleOfText?` reads decimals, infinities and not-a-number.  White space around the text does not
  matter.  A text that is not read so may hold underscores, each of them inside the text and alone.
* `wholeOfText` reads whole numbers.  Tidying leaves out white space, a plus sign, zeros in front, a
  fraction of zeros and underscores.
-/

set_option autoImplicit false

namespace Amalgam

/-- The number that decimal digits write. -/
def digitsValue (ds : List Char) : Nat :=
  ds.foldl (fun n d => n * 10 + (d.toNat - '0'.toNat)) 0

/-- Splits off a sign: whether it is a minus, and the rest. -/
def splitSign : List Char → Bool × List Char
  | '-' :: rest => (true, rest)
  | '+' :: rest => (false, rest)
  | rest => (false, rest)

/-- The value of an exponent that stands at the start of the text, and what follows it. -/
def splitExponent? : List Char → Option (Int × List Char)
  | e :: rest =>
    if e == 'e' || e == 'E' then
      let (negative, rest) := splitSign rest
      let ds := rest.takeWhile Char.isDigit
      if ds.isEmpty then none
      else
        let n : Int := (digitsValue ds : Nat)
        some (if negative then -n else n, rest.dropWhile Char.isDigit)
    else none
  | [] => none

/-! ## Underscores -/

/-- Whether two underscores stand side by side. -/
def hasDoubleUnderscore : List Char → Bool
  | '_' :: '_' :: _ => true
  | _ :: cs => hasDoubleUnderscore cs
  | [] => false

/-- The text without its underscores, if it has some, none of them at an end or beside another. -/
def dropUnderscores? (cs : List Char) : Option (List Char) :=
  if cs.contains '_' && cs.head? != some '_' && cs.getLast? != some '_' &&
      !hasDoubleUnderscore cs then
    some (cs.filter (· != '_'))
  else none

/-! ## Doubles -/

/-- Reads digits with an optional point and an optional exponent. -/
def decimalOfText? (negative : Bool) (cs : List Char) : Option Double :=
  let whole := cs.takeWhile Char.isDigit
  let rest := cs.dropWhile Char.isDigit
  let (fraction, rest) :=
    match rest with
    | '.' :: rest => (rest.takeWhile Char.isDigit, rest.dropWhile Char.isDigit)
    | rest => ([], rest)
  if whole.isEmpty && fraction.isEmpty then none
  else
    let read (e : Int) :=
      Double.ofDecimal negative (digitsValue (whole ++ fraction)) (e - fraction.length)
    match rest with
    | [] => some (read 0)
    | _ =>
      match splitExponent? rest with
      | some (e, []) => some (read e)
      | _ => none

/-- Reads a number, an infinity or not-a-number, with a sign or without. -/
def plainDouble? (cs : List Char) : Option Double :=
  let (negative, cs) := splitSign cs
  let name := String.ofList (cs.map Char.toLower)
  if name == "inf" || name == "infinity" then some (.infinite negative)
  else if name == "nan" then some .nan
  else decimalOfText? negative cs

/-- The number that a text writes, if it writes one. -/
def doubleOfText? (s : String) : Option Double :=
  (plainDouble? (trimBoth isWhiteSpace s.toList)).or ((dropUnderscores? s.toList).bind plainDouble?)

/-! ## Whole numbers -/

/-- The largest number of digits of a whole number. -/
def digitLimit : Nat := 4300

/-- Why a text is not read as a whole number. -/
inductive WholeError where
  | unreadable
  /-- It starts like a whole number with too many digits. -/
  | tooLong
  deriving DecidableEq, Repr

/-- Reads digits without a zero in front, with a minus sign or without. -/
def plainWhole (cs : List Char) : Except WholeError Int :=
  let (negative, body) :=
    match cs with
    | '-' :: rest => (true, rest)
    | cs => (false, cs)
  let ds := body.takeWhile Char.isDigit
  if body.head? == some '0' then if body.length = 1 then .ok 0 else .error .unreadable
  else if digitLimit < ds.length then .error .tooLong
  else if ds.isEmpty || ds.length < body.length then .error .unreadable
  else
    let n : Int := (digitsValue ds : Nat)
    .ok (if negative then -n else n)

/-- What follows zeros and underscores, the last of which is `last`; they may end in a minus sign.
If nothing or a point follows, the last of them stays. -/
def afterZeros? (last : Char) : List Char → Option (List Char)
  | [] => some [last]
  | c :: cs =>
    if c == '0' || c == '_' then afterZeros? c cs
    else if c == '.' then some (last :: c :: cs)
    else if c.isDigit || c == '-' then some (c :: cs)
    else none

/-- The text without zeros in front; it must start with a digit. -/
def dropLeadingZeros? : List Char → Option (List Char)
  | [] => none
  | c :: cs => if c == '0' then afterZeros? c cs else if c.isDigit then some (c :: cs) else none

/-- The text without a point and one or more zeros at its end. -/
def dropZeroFraction (cs : List Char) : List Char :=
  match cs.dropWhile (· != '.') with
  | _ :: zeros =>
    if !zeros.isEmpty && zeros.all (· == '0') then cs.takeWhile (· != '.') else cs
  | [] => cs

/-- The text of a whole number without what does not matter. -/
def tidyWhole? (cs : List Char) : Option (List Char) := do
  let (negative, cs) := splitSign (trimBoth isWhiteSpace cs)
  let body ← dropLeadingZeros? cs
  let body := dropZeroFraction body
  let body := (dropUnderscores? body).getD body
  return if negative then '-' :: body else body

/-- The whole number that a text writes. -/
def wholeOfText (s : String) : Except WholeError Int :=
  match plainWhole s.toList with
  | .error .unreadable =>
    match tidyWhole? s.toList with
    | none => .error .unreadable
    | some cs => (plainWhole cs).mapError fun _ => .unreadable
  | result => result

end Amalgam
