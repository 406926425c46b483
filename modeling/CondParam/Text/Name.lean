import CondParam.Text

/-!
# Names

ASCII identifiers and the two kinds of names built from them: dashed names (functions) and dotted
names (attribute tags). `upToFinalNewline` is how the settings read a name: one newline at its end
is let through.
-/

set_option autoImplicit false

namespace CondParam

/-- ASCII letters and the underscore. -/
def isNameStart (c : CodePoint) : Bool := c.isAlpha || c == '_'

/-- ASCII letters, digits and the underscore. -/
def isNameChar (c : CodePoint) : Bool := c.isAlphanum || c == '_'

namespace Text

/-- An ASCII letter or underscore, then ASCII letters, digits and underscores. -/
def isIdentifier : Text → Bool
  | [] => false
  | c :: cs => isNameStart c && cs.all isNameChar

/-- The length of the longest identifier at the front of a text; 0 if none stands there. -/
def identifierLength : Text → Nat
  | [] => 0
  | c :: cs => if isNameStart c then (cs.takeWhile isNameChar).length + 1 else 0

/-- An identifier, then groups of a dash and at least one letter, digit or underscore. -/
def isDashedName (t : Text) : Bool :=
  match splitOn '-' t with
  | [] => false
  | first :: rest => first.isIdentifier && rest.all fun part => !part.isEmpty && part.all isNameChar

/-- An identifier in which dots may stand after the first character. -/
def isDottedName : Text → Bool
  | [] => false
  | c :: cs => isNameStart c && cs.all fun d => isNameChar d || d == '.'

/-- `p` holds of `t`, or of `t` without the newline at its end. -/
def upToFinalNewline (p : Text → Bool) (t : Text) : Bool :=
  p t || (t.getLast? == some (.char '\n') && p t.dropLast)

end Text

end CondParam
