import Amalgam.Number.Double

/-!
# Decimal digits of a double

A positive double has a decimal exponent `k`, the one with `10 ^ k ≤ x < 10 ^ (k + 1)`.  On the grid
of the decimals with `n` significant digits it has two neighbours.

* `shortest` takes the least `n` for which a neighbour reads back as the double, and the nearer of
  two.
* `significant` rounds to `n` digits, a tie to the even digit.
-/

set_option autoImplicit false

namespace Amalgam

/-- The decimal `coefficient * 10 ^ exponent`. -/
structure Decimal where
  coefficient : Nat
  exponent : Int
  deriving DecidableEq, Repr

namespace Decimal

/-- The decimal exponent of `num / den`, for quotients above `10 ^ -400`. -/
def leadingExponent (num den : Nat) : Int :=
  (Double.decimalLength (num * Nat.pow 10 400 / den) : Int) - 401

/-- The neighbours of `num / den` among the multiples of `10 ^ exponent`, the nearer one first. -/
def neighbours (num den : Nat) (exponent : Int) : List Decimal :=
  let (n, d) := scaleDown 10 num den exponent
  let q := n / d
  let r := n % d
  if r = 0 then [⟨q, exponent⟩]
  else if 2 * r < d ∨ (2 * r = d ∧ q % 2 = 0) then [⟨q, exponent⟩, ⟨q + 1, exponent⟩]
  else [⟨q + 1, exponent⟩, ⟨q, exponent⟩]

/-- Whether the decimal is read as the double `coefficient * 2 ^ exponent`. -/
def readsAs (x : Decimal) (coefficient : Nat) (exponent : Int) : Bool :=
  Double.ofDecimal false x.coefficient x.exponent == .finite false coefficient exponent

/-- The decimal with the fewest digits that is read as `coefficient * 2 ^ exponent`.  Seventeen
digits are enough for every double. -/
def shortest (coefficient : Nat) (exponent : Int) : Decimal :=
  let (num, den) := Double.ratio coefficient exponent
  let k := leadingExponent num den
  let candidates := (List.range 17).flatMap fun (n : Nat) => neighbours num den (k - n)
  match candidates.find? fun x => x.readsAs coefficient exponent with
  | some x => x
  | none => ⟨0, 0⟩

/-- `coefficient * 2 ^ exponent` rounded to `n + 1` significant digits. -/
def significant (n : Nat) (coefficient : Nat) (exponent : Int) : Decimal :=
  let (num, den) := Double.ratio coefficient exponent
  let e := leadingExponent num den - n
  let (n, d) := scaleDown 10 num den e
  ⟨roundHalfEven n d, e⟩

end Decimal

end Amalgam
