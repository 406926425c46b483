import CondParam.Text.Quoted

/-!
# Text for a terminal

Printed text loses its terminal sequences: an escape character and a bracket, then any number of
digits, semicolons and question marks, and a letter that ends the sequence. The remaining text is
not looked at again, so what closes up to a sequence stays.
-/

set_option autoImplicit false

namespace CondParam

/-- Characters between the bracket of a terminal sequence and the letter that ends it. -/
def isSequenceArgument (c : CodePoint) : Bool := c.isDigit || c == ';' || c == '?'

namespace Text

/-- The length of the terminal sequence at the front of a text; 0 if none stands there. -/
def sequenceLength : Text → Nat
  | .char '\x1b' :: .char '[' :: cs =>
    let arguments := (cs.takeWhile isSequenceArgument).length
    if (cs.drop arguments).head?.any CodePoint.isAlpha then arguments + 3 else 0
  | _ => 0

/-- The text without its terminal sequences. -/
def withoutSequences : Text → Text
  | [] => []
  | c :: cs =>
    match sequenceLength (c :: cs) with
    | 0 => c :: withoutSequences cs
    | n + 1 => withoutSequences (cs.drop n)
termination_by t => t.length
decreasing_by all_goals simp only [List.length_drop, List.length_cons]; omega

/-- The text with every half of a surrogate pair written as an escape. -/
def halvesEscaped (t : Text) : Text :=
  t.flatMap fun
    | .char c => [.char c]
    | .half n => concat ["\\u", hex 4 (CodePoint.half n).toNat]

/-- The text with its control characters written as escapes. -/
def controlsEscaped (t : Text) : Text :=
  t.flatMap fun c =>
    if c.toNat < 0x20 || (0x7F ≤ c.toNat && c.toNat < 0xA0) then concat ["\\x", hex 2 c.toNat]
    else [c]

end Text

/-- Texts as they are printed, each on its own line. -/
def printed (texts : List Text) : Text := texts.flatMap fun t => t.withoutSequences ++ "\n"

end CondParam
