import Amalgam.Number.Decimal

/-!
# Doubles as text

A layout says from which decimal exponent on a number is written with an exponent, and whether a
whole number keeps a point.  Both layouts of this library write an exponent below `10 ^ -4`, with
a sign and at least two digits.
-/

set_option autoImplicit false

namespace Amalgam

/-- How the digits of a number are laid out. -/
structure Layout where
  /-- Numbers from `10 ^ scientificFrom` on are written with an exponent. -/
  scientificFrom : Int
  /-- What follows a whole number that is written without an exponent. -/
  wholeMark : String

namespace Layout

/-- The layout of values in messages: `100000.0`, `1e+16`, `1e-05`. -/
def value : Layout := ⟨16, ".0"⟩

/-- The layout of durations: `30`, `0.5`, `1e+06`. -/
def duration : Layout := ⟨6, ""⟩

/-- Digits without the zeros at their end. -/
def dropZeros (ds : List Char) : List Char := (ds.reverse.dropWhile (· == '0')).reverse

/-- An exponent with its sign and at least two digits. -/
def exponentText (k : Int) : List Char :=
  let ds := Nat.toDigits 10 k.natAbs
  (if k < 0 then '-' else '+') :: (List.replicate (2 - ds.length) '0' ++ ds)

/-- Writes a positive decimal. -/
def decimal (l : Layout) (x : Decimal) : String :=
  let all := Nat.toDigits 10 x.coefficient
  let ds := dropZeros all
  let k : Int := x.exponent + all.length - 1
  if k < -4 ∨ l.scientificFrom ≤ k then
    let fraction := ds.drop 1
    String.ofList (ds.take 1 ++ (if fraction.isEmpty then [] else '.' :: fraction) ++
      'e' :: exponentText k)
  else if k < 0 then
    String.ofList ('0' :: '.' :: (List.replicate ((-k).toNat - 1) '0' ++ ds))
  else
    let width := k.toNat + 1
    let whole := ds.take width ++ List.replicate (width - ds.length) '0'
    let fraction := ds.drop width
    if fraction.isEmpty then String.ofList whole ++ l.wholeMark
    else String.ofList (whole ++ '.' :: fraction)

/-- Writes a double, with `digits` choosing the decimal of a positive one. -/
def write (l : Layout) (digits : Nat → Int → Decimal) : Double → String
  | .nan => "nan"
  | .infinite negative => if negative then "-inf" else "inf"
  | .finite negative m e =>
    let text := if m = 0 then "0" ++ l.wholeMark else l.decimal (digits m e)
    if negative then "-" ++ text else text

end Layout

namespace Double

/-- The fewest digits that read back. -/
def text (x : Double) : String := Layout.value.write Decimal.shortest x

/-- At most six significant digits. -/
def durationText (x : Double) : String := Layout.duration.write (Decimal.significant 5) x

end Double

end Amalgam
