import CondParam.Data.Display

/-!
# Writing JSON

Documents are indented by two blanks a level, keys are sorted, and everything outside ASCII is
escaped, as surrogate pairs where it needs them. A date or a time, which no JSON document has, is
written as its text.
-/

set_option autoImplicit false

namespace CondParam.Json

/-- A code unit as an escape. -/
def unitEscape (n : Nat) : Text := .concat ["\\u", Text.hex 4 n]

/-- A character inside a string. -/
def writeChar (c : CodePoint) : Text :=
  if c = '\x22' then "\\\""
  else if c = '\\' then "\\\\"
  else if c = '\n' then "\\n"
  else if c = '\r' then "\\r"
  else if c = '\t' then "\\t"
  else if c = '\x0c' then "\\f"
  else if c = '\x08' then "\\b"
  else
    let n := c.toNat
    if 0x20 ≤ n ∧ n < 0x7F then [c]
    else if n < 0x10000 then unitEscape n
    else .concat [unitEscape (0xD800 + (n - 0x10000) / 0x400),
                  unitEscape (0xDC00 + (n - 0x10000) % 0x400)]

/-- A string with its quotes. -/
def writeText (t : Text) : Text := .char '\x22' :: t.flatMap writeChar ++ [.char '\x22']

/-- An infinite number. -/
def writeInfinite (negative : Bool) : Text := if negative then "-Infinity" else "Infinity"

/-- A number with a fraction; one that is too large for 64 bits is infinite. -/
def writeFloating : Floating → Text
  | .nan => "NaN"
  | .infinite negative => writeInfinite negative
  | .finite d => if d.nearest.isNone then writeInfinite d.negative else Floating.display (.finite d)

/-- A line break and the indentation of a level. -/
def newline (level : Nat) : Text := '\n' :: List.replicate (2 * level) (.char ' ')

/-- Items between brackets, one a line, inside a value at `level`. -/
def bracketed (level : Nat) (opening closing : CodePoint) (items : List Text) : Text :=
  if items.isEmpty then [opening, closing]
  else
    .concat [[opening], newline (level + 1), .join (',' :: newline (level + 1)) items,
             newline level, [closing]]

mutual

/-- A value at an indentation level. -/
def writeAt (level : Nat) : Data → Text
  | .null => "null"
  | .bool b => if b then "true" else "false"
  | .int n => .ofInt n
  | .floating x => writeFloating x
  | .text t => writeText t
  | .moment m => writeText m.display
  | .list items => bracketed level '[' ']' (writeItems (level + 1) items)
  | .table entries =>
    bracketed level '{' '}'
      (((writeEntries (level + 1) entries).mergeSort fun a b => Text.le a.1 b.1).map (·.2))

def writeItems (level : Nat) : List Data → List Text
  | [] => []
  | d :: ds => writeAt level d :: writeItems level ds

/-- The entries, each with its key to sort by. -/
def writeEntries (level : Nat) : List (Text × Data) → List (Text × Text)
  | [] => []
  | (key, d) :: rest =>
    (key, .concat [writeText key, ": ", writeAt level d]) :: writeEntries level rest

end

/-- The JSON document of a value. -/
def write (d : Data) : Text := writeAt 0 d

end CondParam.Json
