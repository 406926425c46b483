import CondParam.Data

/-!
# Reading JSON

`Json.read` accepts one JSON value with white space around it, and also `NaN` and the infinities. Of
a repeated key the last value counts. Each reader tells how many characters it has used, or the
first fault on its way.
-/

set_option autoImplicit false

namespace CondParam.Json

/-- White space between the tokens of JSON. -/
def isBlank (c : CodePoint) : Bool := c == ' ' || c == '\t' || c == '\n' || c == '\r'

/-- How much white space stands at the front. -/
def blanks (t : Text) : Nat := (t.takeWhile isBlank).length

/-- The value of a hexadecimal digit. -/
def hexDigit? (c : CodePoint) : Option Nat :=
  let n := c.toNat
  if '0'.toNat ≤ n ∧ n ≤ '9'.toNat then some (n - '0'.toNat)
  else if 'a'.toNat ≤ n ∧ n ≤ 'f'.toNat then some (n - 'a'.toNat + 10)
  else if 'A'.toNat ≤ n ∧ n ≤ 'F'.toNat then some (n - 'A'.toNat + 10)
  else none

/-- The value of hexadecimal digits. -/
def hexValue? (t : Text) : Option Nat :=
  t.foldl (fun n c => do return 16 * (← n) + (← hexDigit? c)) (some 0)

/-- The character that a one-letter escape stands for. -/
def escaped? : CodePoint → Option Nat
  | .char '\x22' => some 0x22
  | .char '\\' => some 0x5C
  | .char '/' => some 0x2F
  | .char 'b' => some 0x08
  | .char 'f' => some 0x0C
  | .char 'n' => some 0x0A
  | .char 'r' => some 0x0D
  | .char 't' => some 0x09
  | _ => none

/-- The code units of a string from the text behind its opening quote. -/
def readUnits : Text → Except DataFault (Read (List Nat))
  | [] => .error .malformed
  | .char '\x22' :: _ => .ok ⟨[], 1⟩
  | .char '\\' :: .char 'u' :: a :: b :: c :: d :: cs =>
    match hexValue? [a, b, c, d] with
    | none => .error .malformed
    | some n => (readUnits cs).map fun r => ⟨n :: r.value, r.length + 6⟩
  | .char '\\' :: c :: cs =>
    match escaped? c with
    | none => .error .malformed
    | some n => (readUnits cs).map fun r => ⟨n :: r.value, r.length + 2⟩
  | c :: cs =>
    if c.toNat < 0x20 || c == '\\' then .error .malformed
    else (readUnits cs).map fun r => ⟨c.toNat :: r.value, r.length + 1⟩

/-- The text of code units: the two halves of a surrogate pair are one character. -/
def textOfUnits : List Nat → Text
  | [] => []
  | [u] => [.ofNat u]
  | u :: v :: us =>
    if 0xD800 ≤ u ∧ u < 0xDC00 ∧ 0xDC00 ≤ v ∧ v < 0xE000 then
      .ofNat (0x10000 + (u - 0xD800) * 0x400 + (v - 0xDC00)) :: textOfUnits us
    else .ofNat u :: textOfUnits (v :: us)

/-- The length of the digits at the front. -/
def digitsLength (t : Text) : Nat := (t.takeWhile CodePoint.isDigit).length

/-- The length of the fraction at the front, point included; 0 if none stands there. -/
def fractionLength : Text → Nat
  | .char '.' :: cs => if digitsLength cs = 0 then 0 else digitsLength cs + 1
  | _ => 0

/-- The length of the sign at the front. -/
def signLength : Text → Nat
  | .char '+' :: _ => 1
  | .char '-' :: _ => 1
  | _ => 0

/-- The length of the exponent at the front, letter included; 0 if none stands there. -/
def exponentLength : Text → Nat
  | c :: cs =>
    let s := signLength cs
    if (c = 'e' ∨ c = 'E') ∧ digitsLength (cs.drop s) ≠ 0 then s + digitsLength (cs.drop s) + 1
    else 0
  | [] => 0

/-- The value of an exponent, given with its letter. -/
def exponentValue (t : Text) : Int :=
  match t.drop 1 with
  | .char '-' :: ds => -(natOfDigits ds : Int)
  | .char '+' :: ds => natOfDigits ds
  | ds => natOfDigits ds

/-- Reads a number without its sign. -/
def readSize (negative : Bool) (t : Text) : Except DataFault (Read Data) :=
  let whole := if t.head? = some (.char '0') then 1 else digitsLength t
  if whole = 0 then .error .malformed
  else
    let f := fractionLength (t.drop whole)
    let e := exponentLength (t.drop (whole + f))
    let wholeDigits := t.take whole
    if f = 0 ∧ e = 0 then
      if digitLimit < whole then .error .longNumeral
      else
        let n : Int := natOfDigits wholeDigits
        .ok ⟨.int (if negative then -n else n), whole⟩
    else
      let fraction := ((t.drop whole).take f).drop 1
      let exponent := if e = 0 then 0 else exponentValue ((t.drop (whole + f)).take e)
      .ok ⟨.floating (.finite (.ofParts negative wholeDigits fraction exponent)), whole + f + e⟩

/-- Reads a number. -/
def readNumber : Text → Except DataFault (Read Data)
  | .char '-' :: cs => (readSize true cs).map (.plus 1)
  | cs => readSize false cs

/-- The values that are written as a word. -/
def words : List (Text × Data) :=
  [("null", .null), ("true", .bool true), ("false", .bool false), ("NaN", .floating .nan),
   ("Infinity", .floating (.infinite false)), ("-Infinity", .floating (.infinite true))]

/-- Reads a word or a number. -/
def readScalar (t : Text) : Except DataFault (Read Data) :=
  match words.find? fun w => w.1.isPrefixOf t with
  | some (word, value) => .ok ⟨value, word.length⟩
  | none => readNumber t

/-- Adds an entry in front of those read behind it, which win over it. -/
def consEntry (key : Text) (value : Data) (rest : List (Text × Data)) : List (Text × Data) :=
  match rest.lookup key with
  | none => (key, value) :: rest
  | some later => (key, later) :: rest.filter (·.1 ≠ key)

mutual

/-- Reads a value; lists and tables in it may be nested `room` deep. -/
def readValue (room : Nat) (t : Text) : Except DataFault (Read Data) :=
  match t with
  | [] => .error .malformed
  | c :: cs =>
    if c = '\x22' then (readUnits cs).map fun r => ⟨.text (textOfUnits r.value), r.length + 1⟩
    else if c = '[' ∨ c = '{' then
      let b := blanks cs
      if room = 0 then .error .tooDeep
      else if c = '[' then
        if (cs.drop b).head? = some (.char ']') then .ok ⟨.list [], b + 2⟩
        else (readElements (room - 1) (cs.drop b)).map fun r => ⟨.list r.value, r.length + (b + 1)⟩
      else
        if (cs.drop b).head? = some (.char '}') then .ok ⟨.table [], b + 2⟩
        else (readMembers (room - 1) (cs.drop b)).map fun r => ⟨.table r.value, r.length + (b + 1)⟩
    else readScalar (c :: cs)
termination_by (t.length, 0)
decreasing_by all_goals simp [Prod.lex_def]; try omega

/-- Reads the elements of a list, and its closing bracket. -/
def readElements (room : Nat) (t : Text) : Except DataFault (Read (List Data)) :=
  match t with
  | [] => .error .malformed
  | c :: cs =>
    match readValue room (c :: cs) with
    | .error e => .error e
    | .ok first =>
      let rest := (c :: cs).drop first.length
      let b := blanks rest
      match (rest.drop b).head? with
      | some (.char ']') => .ok ⟨[first.value], first.length + b + 1⟩
      | some (.char ',') =>
        let b' := blanks ((rest.drop b).drop 1)
        (readElements room (((rest.drop b).drop 1).drop b')).map fun r =>
          ⟨first.value :: r.value, r.length + (first.length + b + 1 + b')⟩
      | _ => .error .malformed
termination_by (t.length, 1)
decreasing_by all_goals simp [Prod.lex_def]; try omega

/-- Reads the members of a table, and its closing brace. -/
def readMembers (room : Nat) (t : Text) : Except DataFault (Read (List (Text × Data))) :=
  match t with
  | .char '\x22' :: cs =>
    match readUnits cs with
    | .error e => .error e
    | .ok key =>
      let rest := cs.drop key.length
      let b := blanks rest
      if (rest.drop b).head? ≠ some (.char ':') then .error .malformed
      else
        let rest₁ := (rest.drop b).drop 1
        let b₁ := blanks rest₁
        match readValue room (rest₁.drop b₁) with
        | .error e => .error e
        | .ok first =>
          let rest₂ := (rest₁.drop b₁).drop first.length
          let b₂ := blanks rest₂
          let used := 1 + key.length + b + 1 + b₁ + first.length + b₂
          match (rest₂.drop b₂).head? with
          | some (.char '}') => .ok ⟨[(textOfUnits key.value, first.value)], used + 1⟩
          | some (.char ',') =>
            let b₃ := blanks ((rest₂.drop b₂).drop 1)
            (readMembers room (((rest₂.drop b₂).drop 1).drop b₃)).map fun r =>
              ⟨consEntry (textOfUnits key.value) first.value r.value, r.length + (used + 1 + b₃)⟩
          | _ => .error .malformed
  | _ => .error .malformed
termination_by (t.length, 1)
decreasing_by all_goals simp [Prod.lex_def]; try omega

end

/-- Reads a JSON document. -/
def read (t : Text) : Except DataFault Data :=
  let b := blanks t
  match readValue nestingLimit (t.drop b) with
  | .error e => .error e
  | .ok r =>
    if ((t.drop b).drop r.length).all isBlank then .ok r.value else .error .malformed

end CondParam.Json
