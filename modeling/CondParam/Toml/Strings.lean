import CondParam.Json.Read

/-!
# TOML strings and keys

Basic strings have escapes, literal strings have none; both come on one line or, in tripled quotes,
on several. A key is one or more parts between dots, each bare or quoted. The readers tell how many
characters they have used, and give nothing for a malformed text.
-/

set_option autoImplicit false

namespace CondParam.Toml

/-- Blanks inside a line. -/
def isBlank (c : CodePoint) : Bool := c == ' ' || c == '\t'

/-- Blanks and newlines. -/
def isGap (c : CodePoint) : Bool := isBlank c || c == '\n'

/-- How many blanks stand at the front. -/
def blanks (t : Text) : Nat := (t.takeWhile isBlank).length

/-- Control characters other than the tab: no string or comment holds one, except that strings on
several lines hold newlines. -/
def isControl (c : CodePoint) : Bool := (c.toNat < 0x20 && c != '\t') || c.toNat == 0x7F

/-- How many characters of a comment stand at the front, the newline not among them; 0 if there is
no comment, nothing if it holds a control character. -/
def commentLength : Text → Option Nat
  | .char '#' :: cs =>
    let comment := cs.takeWhile (· ≠ .char '\n')
    if comment.any isControl then none else some (comment.length + 1)
  | _ => some 0

/-- The character written in hexadecimal digits, `width` of them. -/
def readHexChar (width : Nat) (t : Text) : Option CodePoint :=
  let digits := t.take width
  if digits.length ≠ width then none
  else match Json.hexValue? digits with
    | none => none
    | some n => if n < 0xD800 ∨ (0xE000 ≤ n ∧ n < 0x110000) then some (.ofNat n) else none

/-- The character that a one-letter escape stands for. -/
def escaped? : CodePoint → Option CodePoint
  | .char 'b' => some '\x08'
  | .char 't' => some '\t'
  | .char 'n' => some '\n'
  | .char 'f' => some '\x0c'
  | .char 'r' => some '\r'
  | .char '\x22' => some '\x22'
  | .char '\\' => some '\\'
  | _ => none

/-- How many characters a backslash before white space takes along: the rest of the line, which has
to be blank, and all white space on the lines behind it. -/
def lineEndLength (t : Text) : Option Nat :=
  let b := blanks t
  match t.drop b with
  | [] => some b
  | .char '\n' :: cs => some (b + 1 + (cs.takeWhile isGap).length)
  | _ => none

/-- What an escape adds to the string, and how many characters follow its backslash. -/
def readEscape (multiline : Bool) (t : Text) : Option (Read Text) :=
  match t with
  | [] => none
  | c :: cs =>
    if multiline && isGap c then (lineEndLength t).map (⟨[], ·⟩)
    else if c = 'u' then (readHexChar 4 cs).map fun d => ⟨[d], 5⟩
    else if c = 'U' then (readHexChar 8 cs).map fun d => ⟨[d], 9⟩
    else (escaped? c).map fun d => ⟨[d], 1⟩

/-- Reads a basic string behind its opening quotes. -/
def readBasic (multiline : Bool) : Text → Option (Read Text)
  | [] => none
  | c :: cs =>
    if c = '\x22' ∧ multiline = false then some ⟨[], 1⟩
    else if c = '\x22' ∧ cs.take 2 = "\"\"" then some ⟨[], 3⟩
    else if c = '\\' then
      match readEscape multiline cs with
      | none => none
      | some e =>
        (readBasic multiline (cs.drop e.length)).map fun r =>
          ⟨e.value ++ r.value, r.length + (e.length + 1)⟩
    else if isControl c && !(multiline && c == '\n') then none
    else (readBasic multiline cs).map fun r => ⟨c :: r.value, r.length + 1⟩
termination_by cs => cs.length

/-- Reads a literal string behind its opening quote. -/
def readLiteral (t : Text) : Option (Read Text) :=
  match Text.through ['\x27'] t with
  | none => none
  | some n =>
    let body := t.take (n - 1)
    if body.any isControl then none else some ⟨body, n⟩

/-- Reads a literal string on several lines behind its opening quotes. -/
def readLiteralLines (t : Text) : Option (Read Text) :=
  match Text.through ['\x27', '\x27', '\x27'] t with
  | none => none
  | some n =>
    let body := t.take (n - 3)
    if body.any fun c => isControl c && c != .char '\n' then none else some ⟨body, n⟩

/-- Reads a string in tripled quotes `q` behind them. A newline at its front does not belong to it;
up to two quotes right before the closing ones do. -/
def readLines (q : CodePoint) (t : Text) : Option (Read Text) :=
  let skipped := if t.head? = some (.char '\n') then 1 else 0
  let body := t.drop skipped
  let read := if q = '\x22' then readBasic true body else readLiteralLines body
  read.map fun r =>
    let extra := ((body.drop r.length).take 2).takeWhile (· == q)
    ⟨r.value ++ extra, skipped + r.length + extra.length⟩

/-- Reads a string that opens with the quote `q`, which is in front of the text. -/
def readString (q : CodePoint) (t : Text) : Option (Read Text) :=
  if t.take 2 = [q, q] then (readLines q (t.drop 2)).map (.plus 3)
  else (if q = '\x22' then readBasic false t else readLiteral t).map (.plus 1)

/-- Characters of a bare key. -/
def isBareKeyChar (c : CodePoint) : Bool := c.isAlphanum || c == '-' || c == '_'

/-- Whether a key can start with the character. -/
def startsKey (c : CodePoint) : Bool := isBareKeyChar c || c == '\x22' || c == '\x27'

/-- Reads one part of a key. -/
def readKeyPart (t : Text) : Option (Read Text) :=
  match t with
  | [] => none
  | c :: cs =>
    if isBareKeyChar c then
      let n := (t.takeWhile isBareKeyChar).length
      some ⟨t.take n, n⟩
    else if c = '\x27' then (readLiteral cs).map (.plus 1)
    else if c = '\x22' then (readBasic false cs).map (.plus 1)
    else none

/-- Reads a key, with the blanks behind it. -/
def readKey (t : Text) : Option (Read (List Text)) :=
  match t with
  | [] => none
  | c :: cs =>
    match readKeyPart (c :: cs) with
    | none => none
    | some part =>
      let rest := (c :: cs).drop part.length
      let b := blanks rest
      if (rest.drop b).head? = some (.char '.') then
        let b' := blanks ((rest.drop b).drop 1)
        (readKey (((rest.drop b).drop 1).drop b')).map fun r =>
          ⟨part.value :: r.value, r.length + (part.length + b + 1 + b')⟩
      else some ⟨[part.value], part.length + b⟩
termination_by t.length
decreasing_by simp only [List.length_drop, List.length_cons]; omega

end CondParam.Toml
