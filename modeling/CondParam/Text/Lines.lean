import CondParam.Text

/-!
# Lines

`lines` cuts a text at every line break; `unixNewlines` makes each carriage return, alone or before
a newline, a newline.
-/

set_option autoImplicit false

namespace CondParam

/-- Characters that end a line. -/
def isLineBreak (c : CodePoint) : Bool :=
  let n := c.toNat
  (0x0A ≤ n && n ≤ 0x0D) || (0x1C ≤ n && n ≤ 0x1E) || n == 0x85 || n == 0x2028 || n == 0x2029

namespace Text

/-- The lines of a text without their breaks. A carriage return and a newline are one break, and
nothing follows a break at the end of the text. -/
def lines : Text → List Text
  | [] => []
  | .char '\r' :: .char '\n' :: cs => [] :: lines cs
  | c :: cs =>
    if isLineBreak c then [] :: lines cs
    else match lines cs with
      | [] => [[c]]
      | line :: rest => (c :: line) :: rest

/-- The text with newlines only. -/
def unixNewlines : Text → Text
  | [] => []
  | .char '\r' :: .char '\n' :: cs => '\n' :: unixNewlines cs
  | c :: cs => (if c = '\r' then '\n' else c) :: unixNewlines cs

end Text

end CondParam
