import CondParam.Script.Fault

/-!
# Parameter variables

A parameter is named by a variable: `$Name`, `$scope:Name`, or a dollar sign and any text without a
closing brace between braces.
-/

set_option autoImplicit false

namespace CondParam

/-- The identifier at the front of the text. -/
def readIdentifier? (t : Text) : Option (Read Text) :=
  match t.identifierLength with
  | 0 => none
  | n => some ⟨t.take n, n⟩

/-- The name after a dollar sign; letters and a colon in front of it name a scope. -/
def readPlainName? (t : Text) : Option (Read Text) :=
  let scope := t.takeWhile CodePoint.isAlpha
  let afterScope :=
    if scope ≠ [] ∧ (t.drop scope.length).head? = some (.char ':') then
      (readIdentifier? (t.drop (scope.length + 1))).map (.plus (scope.length + 1))
    else none
  afterScope <|> readIdentifier? t

/-- Reads a parameter variable. -/
def readVariable (t : Text) : Except Fault (Read Text) :=
  match t with
  | .char '$' :: .char '{' :: cs =>
    match Text.through ['}'] cs with
    | some n => .ok ⟨cs.take (n - 1), n + 2⟩
    | none => .error ⟨.unterminatedVariable, t.length⟩
  | .char '$' :: cs =>
    match readPlainName? cs with
    | some r => .ok (r.plus 1)
    | none => .error ⟨.expectedVariable, t.length⟩
  | _ => .error ⟨.expectedVariable, t.length⟩

end CondParam
