import CondParam.Script.Group
import CondParam.Text.Word

/-!
# Finding the parameter block

The block starts at the first `param` keyword with an opening parenthesis behind it, strings,
comments and square groups apart. Square groups right before the keyword, with nothing but white
space and comments between, are the attributes of the block.
-/

set_option autoImplicit false

namespace CondParam

/-- The attributes of a block and the text behind its opening parenthesis. -/
structure Located where
  attributes : List Text
  rest : Text
  deriving DecidableEq, Repr

/-- If the text starts with `param`, in any case, and a parenthesis behind white space, what follows
the parenthesis. -/
def afterKeyword? (t : Text) : Option Text :=
  if (t.take 5).map CodePoint.toLower = "param" then
    match (t.drop 5).dropWhile isSpace with
    | .char '(' :: rest => some rest
    | _ => none
  else none

/-- Characters of a command word: word characters, the dollar sign and the dash. -/
def isCommandChar (c : CodePoint) : Bool := isWordChar c || c == '$' || c == '-'

/-- Finds the block. `attributes` are the square groups right before the text, and `afterDot` tells
whether a dot stands there: a member called `param` is no keyword. -/
def locateFrom (attributes : List Text) (afterDot : Bool) : Text → Except Fault (Option Located)
  | [] => .ok none
  | c :: cs =>
    match Item.next true c cs with
    | .error f => .error f
    | .ok (.comment, n) => locateFrom attributes false (cs.drop n)
    | .ok (.string, n) => locateFrom [] false (cs.drop n)
    | .ok (.opening .square, _) =>
      match Bracket.square.groupTail cs with
      | .error f => .error f
      | .ok n => locateFrom (attributes ++ [c :: cs.take n]) false (cs.drop n)
    | .ok (.escape d, n) => locateFrom [] (d == some '.') (cs.drop n)
    | .ok (_, _) =>
      if isSpace c then locateFrom attributes false cs
      else match (if afterDot then none else afterKeyword? (c :: cs)) with
        | some rest => .ok (some ⟨attributes, rest⟩)
        | none =>
          if isCommandChar c then locateFrom [] false (cs.drop (cs.takeWhile isCommandChar).length)
          else locateFrom [] (c == '.') cs
termination_by cs => cs.length

/-- Finds the parameter block of a script. -/
def locateBlock (t : Text) : Except Fault (Option Located) := locateFrom [] false t

end CondParam
