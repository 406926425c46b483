import CondParam.Json.Read

/-!
# TOML numbers

Integers in four bases and numbers with a fraction or an exponent. An underscore may stand between
two digits.
-/

set_option autoImplicit false

namespace CondParam.Toml

/-- The length of digits with underscores between them; 0 if no digit stands at the front. -/
def groupedLength (isDigit : CodePoint → Bool) : Text → Nat
  | [] => 0
  | [c] => if isDigit c then 1 else 0
  | c :: d :: cs =>
    if isDigit c then
      if d = '_' then
        match groupedLength isDigit cs with
        | 0 => 1
        | n => n + 2
      else groupedLength isDigit (d :: cs) + 1
    else 0

/-- The digits without the underscores between them. -/
def bareDigits (t : Text) : Text := t.filter (· ≠ .char '_')

/-- The digits of the bases that have a letter. -/
def baseOf? : CodePoint → Option (Nat × (CodePoint → Bool))
  | .char 'x' => some (16, fun c => (Json.hexDigit? c).isSome)
  | .char 'o' => some (8, fun c => c.isDigit && c.toNat < '8'.toNat)
  | .char 'b' => some (2, fun c => c == '0' || c == '1')
  | _ => none

/-- The number written by digits of a base. -/
def natInBase (base : Nat) (t : Text) : Nat :=
  t.foldl (fun n c => base * n + (Json.hexDigit? c).getD 0) 0

/-- Reads an integer in a base that its second letter names. -/
def readBased (t : Text) : Option (Read Data) :=
  match t with
  | .char '0' :: letter :: cs =>
    match baseOf? letter with
    | none => none
    | some (base, isDigit) =>
      match groupedLength isDigit cs with
      | 0 => none
      | n => some ⟨.int (natInBase base (bareDigits (cs.take n))), n + 2⟩
  | _ => none

/-- The length of a fraction, point included; 0 if none stands at the front. -/
def fractionLength : Text → Nat
  | .char '.' :: cs =>
    match groupedLength CodePoint.isDigit cs with
    | 0 => 0
    | n => n + 1
  | _ => 0

/-- The length of an exponent, letter included; 0 if none stands at the front. -/
def exponentLength : Text → Nat
  | c :: cs =>
    let s := Json.signLength cs
    match groupedLength CodePoint.isDigit (cs.drop s) with
    | 0 => 0
    | n => if c = 'e' ∨ c = 'E' then s + n + 1 else 0
  | [] => 0

/-- Reads a decimal number. -/
def readDecimal (t : Text) : Except DataFault (Read Data) :=
  let s := Json.signLength t
  let negative := t.head? = some (.char '-')
  let size := t.drop s
  let whole := if size.head? = some (.char '0') then 1 else groupedLength CodePoint.isDigit size
  if whole = 0 then .error .malformed
  else
    let f := fractionLength (size.drop whole)
    let e := exponentLength (size.drop (whole + f))
    let wholeDigits := bareDigits (size.take whole)
    if f = 0 ∧ e = 0 then
      if digitLimit < wholeDigits.length then .error .longNumeral
      else
        let n : Int := natOfDigits wholeDigits
        .ok ⟨.int (if negative then -n else n), s + whole⟩
    else
      let fraction := bareDigits (((size.drop whole).take f).drop 1)
      let exponent :=
        if e = 0 then 0 else Json.exponentValue (bareDigits ((size.drop (whole + f)).take e))
      .ok ⟨.floating (.finite (.ofParts negative wholeDigits fraction exponent)), s + whole + f + e⟩

/-- The numbers that are written as a word. -/
def numberWords : List (Text × Floating) :=
  [("inf", .infinite false), ("+inf", .infinite false), ("-inf", .infinite true),
   ("nan", .nan), ("+nan", .nan), ("-nan", .nan)]

/-- Reads a number. -/
def readNumber (t : Text) : Except DataFault (Read Data) :=
  match readBased t with
  | some r => .ok r
  | none => match readDecimal t with
    | .error .malformed =>
      wellFormed ((numberWords.find? fun w => w.1.isPrefixOf t).map fun w =>
        ⟨.floating w.2, w.1.length⟩)
    | r => r

end CondParam.Toml
