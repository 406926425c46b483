import CondParam.Data
import CondParam.Decimal.Shortest
import CondParam.Text.Quoted

/-!
# Displayed data

How a value that should have been a text is written when it is taken for one: `True`, `12`, `1.5`,
`['a', None]`, `2024-01-01`. Numbers with a fraction have the fewest digits that round to the same
64-bit number; they are positional from `0.0001` up to below `10 ^ 16`, and always have a point or
an exponent. An integer with more than `digitLimit` digits cannot be written, nor anything that
holds one.
-/

set_option autoImplicit false

namespace CondParam

/-- Digits without the zeros at their end. -/
def trimZeros (t : Text) : Text := (t.reverse.dropWhile (· == .char '0')).reverse

/-- The digits `ds`, the first of which stands for `10 ^ e`, with a point among them. -/
def positionalDigits (ds : Text) (e : Int) : Text :=
  if e < 0 then .concat ["0.", List.replicate ((-e).toNat - 1) (.char '0'), ds]
  else
    let whole := e.toNat + 1
    if ds.length ≤ whole then .concat [ds, List.replicate (whole - ds.length) (.char '0'), ".0"]
    else .concat [ds.take whole, ".", ds.drop whole]

/-- The digits `ds`, the first of which stands for `10 ^ e`, with an exponent of two digits or
more. -/
def scientificDigits (ds : Text) (e : Int) : Text :=
  let fraction : Text := if ds.length ≤ 1 then [] else '.' :: ds.drop 1
  let size := Text.ofNat e.natAbs
  .concat [ds.take 1, fraction, if e < 0 then "e-" else "e+",
    List.replicate (2 - size.length) (.char '0'), size]

/-- The size of a 64-bit number. -/
def Binary.display (b : Binary) : Text :=
  if b.mantissa = 0 then "0.0"
  else
    let d := b.shortest
    let all := Text.ofNat d.digits
    let e := d.exponent + (all.length - 1 : Nat)
    if -4 ≤ e ∧ e < 16 then positionalDigits (trimZeros all) e
    else scientificDigits (trimZeros all) e

def Floating.display : Floating → Text
  | nan => "nan"
  | infinite negative => if negative then "-inf" else "inf"
  | finite d =>
    let size : Text := match d.nearest with
      | some b => b.display
      | none => "inf"
    if d.negative then '-' :: size else size

namespace Data

mutual

/-- A value inside a list or a table. -/
def nested? : Data → Option Text
  | null => some "None"
  | bool b => some (if b then "True" else "False")
  | int n => if n.natAbs < Nat.pow 10 digitLimit then some (.ofInt n) else none
  | floating x => some x.display
  | text t => some t.quoted
  | moment m => some m.nested
  | list items => (nestedItems? items).map fun ts => .concat ["[", .join ", " ts, "]"]
  | table entries => (nestedEntries? entries).map fun ts => .concat ["\x7b", .join ", " ts, "\x7d"]

def nestedItems? : List Data → Option (List Text)
  | [] => some []
  | d :: ds =>
    match nested? d with
    | none => none
    | some t => (nestedItems? ds).map (t :: ·)

def nestedEntries? : List (Text × Data) → Option (List Text)
  | [] => some []
  | (key, d) :: rest =>
    match nested? d with
    | none => none
    | some t => (nestedEntries? rest).map (.concat [key.quoted, ": ", t] :: ·)

end

/-- A value taken for a text: a text is itself, and a date or a time has a text of its own. -/
def display? : Data → Option Text
  | text t => some t
  | moment m => some m.display
  | d => nested? d

end Data

end CondParam
