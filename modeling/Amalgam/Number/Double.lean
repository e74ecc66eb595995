/-!
# Double-precision numbers

A double is a signed whole number times a power of two, an infinity or the not-a-number value.
Finite doubles are kept in their canonical form: the coefficient is below `2 ^ 53`, and it is at
least `2 ^ 52` unless the exponent is the least one.

* `Double.ofRatio` rounds a quotient to the nearest double, a tie to the even coefficient.
* `Double.ofDecimal` reads a coefficient with a power of ten.
* `Double.toBits` is the interchange format of IEEE 754.
-/

set_option autoImplicit false

namespace Amalgam

/-- A double-precision number. -/
inductive Double where
  | nan
  | infinite (negative : Bool)
  /-- The number `± coefficient * 2 ^ exponent`. -/
  | finite (negative : Bool) (coefficient : Nat) (exponent : Int)
  deriving DecidableEq, Repr

namespace Double

/-- The exponent of the smallest positive double. -/
def leastExponent : Int := -1074

/-- The largest exponent of a finite double. -/
def greatestExponent : Int := 971

def zero (negative : Bool) : Double := .finite negative 0 leastExponent

def isZero : Double → Bool
  | .finite _ 0 _ => true
  | _ => false

end Double

/-- The whole number nearest to `num / den`; a tie goes to the even one. -/
def roundHalfEven (num den : Nat) : Nat :=
  let q := num / den
  let r := num % den
  if 2 * r < den then q
  else if den < 2 * r then q + 1
  else if q % 2 = 0 then q else q + 1

/-- A quotient times `2 ^ -e` or `10 ^ -e`, as a quotient again. -/
def scaleDown (base : Nat) (num den : Nat) (e : Int) : Nat × Nat :=
  if 0 ≤ e then (num, den * Nat.pow base e.toNat) else (num * Nat.pow base (-e).toNat, den)

namespace Double

/-- The double nearest to `± num / den`. -/
def ofRatio (negative : Bool) (num den : Nat) : Double :=
  if num = 0 then zero negative
  else
    -- `num / den` lies in `[2 ^ 51, 2 ^ 53)` times `2 ^ guess`
    let guess : Int := (Nat.log2 num : Int) - Nat.log2 den - 52
    let (n, d) := scaleDown 2 num den guess
    let exact := if n < d * Nat.pow 2 52 then guess - 1 else guess
    let e := max exact leastExponent
    let (n, d) := scaleDown 2 num den e
    let m := roundHalfEven n d
    let (m, e) := if m = Nat.pow 2 53 then (Nat.pow 2 52, e + 1) else (m, e)
    if greatestExponent < e then .infinite negative else .finite negative m e

/-- The number of decimal digits of `n`. -/
def decimalLength (n : Nat) : Nat := (Nat.toDigits 10 n).length

/-- The double nearest to `± digits * 10 ^ exponent`.  Magnitudes far outside the range are decided
without computing the power. -/
def ofDecimal (negative : Bool) (digits : Nat) (exponent : Int) : Double :=
  if digits = 0 then zero negative
  else
    let magnitude := exponent + decimalLength digits
    if 400 < magnitude then .infinite negative
    else if magnitude < -400 then zero negative
    else
      let (num, den) := scaleDown 10 digits 1 (-exponent)
      ofRatio negative num den

/-- The double nearest to a whole number. -/
def ofInt (i : Int) : Double := ofRatio (i < 0) i.natAbs 1

/-- The absolute value of a finite double as a quotient. -/
def ratio (coefficient : Nat) (exponent : Int) : Nat × Nat :=
  scaleDown 2 coefficient 1 (-exponent)

/-- The whole number that a double is, if it is one. -/
def toInt? : Double → Option Int
  | .finite negative m e =>
    let (num, den) := ratio m e
    if num % den = 0 then
      let q : Int := (num / den : Nat)
      some (if negative then -q else q)
    else none
  | _ => none

/-- The sixty-four bits of a double; not-a-number has one pattern. -/
def toBits : Double → Nat
  | .nan => 0x7FF8000000000000
  | .infinite negative => (if negative then Nat.pow 2 63 else 0) + 0x7FF0000000000000
  | .finite negative m e =>
    let sign := if negative then Nat.pow 2 63 else 0
    if m < Nat.pow 2 52 then sign + m
    else sign + (e - leastExponent).toNat * Nat.pow 2 52 + m

end Double

end Amalgam
