import CondParam.Text

/-!
# Decimal numbers

The value of a decimal literal, kept exactly, and the two values that no literal of digits has.
-/

set_option autoImplicit false

namespace CondParam

/-- `digits · 10 ^ exponent`, with a sign that zero has too. -/
structure Decimal where
  negative : Bool
  digits : Nat
  exponent : Int
  deriving DecidableEq, Repr

/-- A number with a fraction, as a file or a payload can give it. -/
inductive Floating where
  | finite (d : Decimal)
  | infinite (negative : Bool)
  | nan
  deriving DecidableEq, Repr

/-- The natural number written by digits. -/
def natOfDigits (t : Text) : Nat := t.foldl (fun n c => 10 * n + (c.toNat - '0'.toNat)) 0

/-- The most digits that an integer may have where it is read or shown in decimal. -/
def digitLimit : Nat := 4300

/-- `10 ^ e` as a numerator and a denominator. -/
def powerOfTen (e : Int) : Nat × Nat :=
  if 0 ≤ e then (Nat.pow 10 e.toNat, 1) else (1, Nat.pow 10 (-e).toNat)

namespace Decimal

/-- Integer digits, fraction digits and exponent of a literal. -/
def ofParts (negative : Bool) (whole fraction : Text) (exponent : Int) : Decimal where
  negative
  digits := natOfDigits (whole ++ fraction)
  exponent := exponent - fraction.length

end Decimal

end CondParam
