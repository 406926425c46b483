import CondParam.Decimal.Nearest

/-!
# The shortest decimal

Of the decimals that round to a given 64-bit number, the one with the fewest digits, and of these
the nearest. On the grid of decimals with `k` digits only the two neighbours of the number can be
it; with 17 digits one of them always is.
-/

set_option autoImplicit false

namespace CondParam

/-- The decimal exponent of the first digit of `n / d`. -/
def leadingExponent (n d : Nat) : Int :=
  let guess : Int := ((Nat.toDigits 10 n).length : Int) - (Nat.toDigits 10 d).length
  let p := powerOfTen guess
  if d * p.1 ≤ n * p.2 then guess else guess - 1

/-- The two neighbours of `n / d` on the grid of multiples of `10 ^ e`, the nearer one first. -/
def gridNeighbours (n d : Nat) (e : Int) : List Decimal :=
  let p := powerOfTen e
  let num := n * p.2
  let den := d * p.1
  let below : Decimal := ⟨false, num / den, e⟩
  let above : Decimal := ⟨false, num / den + 1, e⟩
  if roundDiv num den = num / den then [below, above] else [above, below]

/-- The shortest decimal with `k` or more digits that rounds to `b`, while `fuel` lasts. -/
def Binary.shortestFrom (b : Binary) (k : Nat) : Nat → Decimal
  | 0 => ⟨false, b.fraction.1, 0⟩
  | fuel + 1 =>
    let f := b.fraction
    let e := leadingExponent f.1 f.2 - (k - 1 : Nat)
    match (gridNeighbours f.1 f.2 e).find? (·.nearest = some b) with
    | some d => d
    | none => b.shortestFrom (k + 1) fuel

/-- The shortest decimal that rounds to `b`. -/
def Binary.shortest (b : Binary) : Decimal := b.shortestFrom 1 17

end CondParam
