import CondParam.Script.Item

/-!
# Trivia

What may stand between the parts of a declaration: white space, comments, and a backtick at the end
of a line.
-/

set_option autoImplicit false

namespace CondParam

/-- How many characters of trivia stand at the front of a text. -/
def triviaLength : Text → Except Fault Nat
  | [] => .ok 0
  | c :: cs =>
    if isSpace c then (triviaLength cs).map (· + 1)
    else match commentTail? true c cs with
      | some (.error f) => .error f
      | some (.ok n) => (triviaLength (cs.drop n)).map (· + (n + 1))
      | none =>
        if c = backtick ∧ (cs.head? = some (.char '\n') ∨ cs.head? = some (.char '\r')) then
          (triviaLength (cs.drop 1)).map (· + 2)
        else .ok 0
termination_by cs => cs.length

end CondParam
