import CondParam.Script.Item

/-!
# Bracketed groups

A group runs from an opening bracket to the bracket that closes it. Brackets inside strings and
comments and escaped brackets do not count; all others have to match.
-/

set_option autoImplicit false

namespace CondParam

/-- How many characters there are up to and including the bracket that closes the outermost open
group. `open` groups are `top`, the innermost, and those `below` it; at the end of the text the
fault is `unclosed`. -/
def closingTail (unclosed : Fault) (top : Bracket) (below : List Bracket) (fresh : Bool) :
    Text → Except Fault Nat
  | [] => .error unclosed
  | c :: cs =>
    match Item.next fresh c cs with
    | .error f => .error f
    | .ok (.opening b, n) =>
      (closingTail unclosed b (top :: below) true (cs.drop n)).map (· + (n + 1))
    | .ok (.closing b, n) =>
      if b = top then
        match below with
        | [] => .ok (n + 1)
        | b' :: below => (closingTail unclosed b' below false (cs.drop n)).map (· + (n + 1))
      else .error ⟨.mismatched b, cs.length + 1⟩
    | .ok (item, n) =>
      (closingTail unclosed top below item.startsToken (cs.drop n)).map (· + (n + 1))
termination_by cs => cs.length

/-- How many characters of a group follow its opening bracket `b`, the closing one included. -/
def Bracket.groupTail (b : Bracket) (cs : Text) : Except Fault Nat :=
  closingTail ⟨.unclosed b, cs.length + 1⟩ b [] true cs

end CondParam
