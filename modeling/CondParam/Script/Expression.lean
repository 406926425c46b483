import CondParam.Script.Group

/-!
# Expressions

A default value runs up to the first comma or closing parenthesis outside its own groups, strings
and comments. Trivia at its end does not belong to it.
-/

set_option autoImplicit false

namespace CondParam

/-- How far an expression reaches: `text` characters without the trivia at its end, and `stop`
characters up to the comma, the parenthesis or the end of the text where it stops. -/
structure Reach where
  text : Nat
  stop : Nat
  deriving DecidableEq, Repr

namespace Reach

/-- The expression with `n` characters of its own in front. -/
def afterText (n : Nat) (r : Reach) : Reach := ⟨r.text + n, r.stop + n⟩

/-- The expression with `n` characters of trivia in front; nothing but trivia is no text. -/
def afterTrivia (n : Nat) (r : Reach) : Reach := ⟨if r.text = 0 then 0 else r.text + n, r.stop + n⟩

end Reach

/-- How far the expression at the front of the text reaches. -/
def expressionReach (fresh : Bool) : Text → Except Fault Reach
  | [] => .ok ⟨0, 0⟩
  | c :: cs =>
    if c = ',' ∨ c = ')' then .ok ⟨0, 0⟩
    else match Item.next fresh c cs with
      | .error f => .error f
      | .ok (.comment, n) => (expressionReach false (cs.drop n)).map (.afterTrivia (n + 1))
      | .ok (.opening b, _) =>
        match b.groupTail cs with
        | .error f => .error f
        | .ok n => (expressionReach false (cs.drop n)).map (.afterText (n + 1))
      | .ok (.closing b, _) => .error ⟨.unexpectedClosing b, cs.length + 1⟩
      | .ok (item, n) =>
        let reach := expressionReach item.startsToken (cs.drop n)
        if isSpace c then reach.map (.afterTrivia (n + 1)) else reach.map (.afterText (n + 1))
termination_by cs => cs.length

end CondParam
