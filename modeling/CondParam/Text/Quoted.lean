import CondParam.Text
import CondParam.Text.Printable

/-!
# Quoted texts

How a text is shown inside a message: between single quotes, or between double quotes when it holds
single quotes only; the quote in use, backslashes and characters that do not print are escaped.
-/

set_option autoImplicit false

namespace CondParam.Text

/-- `n` in hexadecimal, with zeros in front up to `width` digits. -/
def hex (width n : Nat) : Text :=
  let digits := ofChars (Nat.toDigits 16 n)
  List.replicate (width - digits.length) (.char '0') ++ digits

/-- The quote around a shown text. -/
def quoteFor (t : Text) : CodePoint := if t.contains '\'' && !t.contains '"' then '"' else '\''

/-- A character between the quotes `q`. -/
def quotedChar (q c : CodePoint) : Text :=
  if c = q || c = '\\' then ['\\', c]
  else if c = '\t' then "\\t"
  else if c = '\n' then "\\n"
  else if c = '\r' then "\\r"
  else if isPrintable c then [c]
  else if c.toNat ≤ 0xFF then concat ["\\x", hex 2 c.toNat]
  else if c.toNat ≤ 0xFFFF then concat ["\\u", hex 4 c.toNat]
  else concat ["\\U", hex 8 c.toNat]

/-- The text as it is shown in a message. -/
def quoted (t : Text) : Text := quoteFor t :: t.flatMap (quotedChar (quoteFor t)) ++ [quoteFor t]

end CondParam.Text
