import CondParam.Decimal

/-!
# The nearest binary fraction

Numbers are held in 64 bits: 53 binary digits and a bounded exponent. `nearestBinary` rounds a
quotient to such a number, a tie going to the even neighbour.
-/

set_option autoImplicit false

namespace CondParam

/-- `mantissa · 2 ^ exponent`. -/
structure Binary where
  mantissa : Nat
  exponent : Int
  deriving DecidableEq, Repr

/-- The integer nearest to `n / d`, of two the even one. -/
def roundDiv (n d : Nat) : Nat :=
  let q := n / d
  let r := n % d
  if d < 2 * r ∨ (2 * r = d ∧ q % 2 = 1) then q + 1 else q

/-- `n / d` in units of `2 ^ e`, as a numerator and a denominator. -/
def inUnits (n d : Nat) (e : Int) : Nat × Nat :=
  if 0 ≤ e then (n, d * Nat.pow 2 e.toNat) else (n * Nat.pow 2 (-e).toNat, d)

/-- The smallest exponent of a 64-bit number. -/
def leastExponent : Int := -1074

/-- The largest exponent of a 64-bit number. -/
def greatestExponent : Int := 971

/-- The 64-bit number nearest to `n / d`; none if that is too large. -/
def nearestBinary (n d : Nat) : Option Binary :=
  if n = 0 then some ⟨0, leastExponent⟩
  else
    let guess : Int := (n.log2 : Int) - d.log2 - 52
    let scaled := inUnits n d guess
    let fitted := if scaled.1 / scaled.2 < Nat.pow 2 52 then guess - 1 else guess
    let e := max fitted leastExponent
    let scaled := inUnits n d e
    let m := roundDiv scaled.1 scaled.2
    let result : Binary := if m = Nat.pow 2 53 then ⟨Nat.pow 2 52, e + 1⟩ else ⟨m, e⟩
    if greatestExponent < result.exponent then none else some result

/-- The numerator and denominator of a binary number. -/
def Binary.fraction (b : Binary) : Nat × Nat :=
  if 0 ≤ b.exponent then (b.mantissa * Nat.pow 2 b.exponent.toNat, 1)
  else (b.mantissa, Nat.pow 2 (-b.exponent).toNat)

/-- The 64-bit number nearest to the size of a decimal; none if that is too large. No decimal from
`10 ^ 310` on has one, and every decimal below `10 ^ -330` rounds to zero. -/
def Decimal.nearest (d : Decimal) : Option Binary :=
  let leading := d.exponent + (Nat.toDigits 10 d.digits).length
  if d.digits = 0 ∨ leading < -330 then some ⟨0, leastExponent⟩
  else if 311 < leading then none
  else
    let p := powerOfTen d.exponent
    nearestBinary (d.digits * p.1) p.2

end CondParam
