import CondParam.Text.Name
import CondParam.Text.Quoted

/-!
# Faults of a script text

A fault is a reason and a place. The place is given by the number of characters left from there to
the end of the text, so that the readers need not know what stands before the text they are given;
`Fault.position` turns it into a line and a column.
-/

set_option autoImplicit false

namespace CondParam

inductive Bracket where
  | paren
  | square
  | brace
  deriving DecidableEq, Repr

namespace Bracket

def opening : Bracket → CodePoint
  | paren => '('
  | square => '['
  | brace => '{'

def closing : Bracket → CodePoint
  | paren => ')'
  | square => ']'
  | brace => '}'

/-- The bracket that `c` opens. -/
def ofOpening? : CodePoint → Option Bracket
  | .char '(' => some paren
  | .char '[' => some square
  | .char '{' => some brace
  | _ => none

/-- The bracket that `c` closes. -/
def ofClosing? : CodePoint → Option Bracket
  | .char ')' => some paren
  | .char ']' => some square
  | .char '}' => some brace
  | _ => none

@[simp] theorem ofOpening?_opening (b : Bracket) : ofOpening? b.opening = some b := by
  cases b <;> rfl

@[simp] theorem ofClosing?_closing (b : Bracket) : ofClosing? b.closing = some b := by
  cases b <;> rfl

theorem eq_opening_of_ofOpening? {c : CodePoint} {b : Bracket} (h : ofOpening? c = some b) :
    c = b.opening := by
  unfold ofOpening? at h
  split at h <;> cases h <;> rfl

theorem eq_closing_of_ofClosing? {c : CodePoint} {b : Bracket} (h : ofClosing? c = some b) :
    c = b.closing := by
  unfold ofClosing? at h
  split at h <;> cases h <;> rfl

end Bracket

/-- Why a script text cannot be read. -/
inductive Reason where
  | unterminatedHereString
  | unterminatedString
  | unterminatedComment
  | mismatched (b : Bracket)
  | unclosed (b : Bracket)
  | unterminatedBlock
  | expectedSeparator (found : CodePoint)
  | missingDefault
  | unterminatedVariable
  | expectedVariable
  | unexpectedClosing (b : Bracket)
  | expectedTag
  | unexpectedText
  | textAfterArguments
  | emptyArgument
  | missingArgumentValue (name : Text)
  deriving DecidableEq, Repr

def Reason.message : Reason → Text
  | unterminatedHereString => "unterminated here-string"
  | unterminatedString => "unterminated string"
  | unterminatedComment => "unterminated block comment"
  | mismatched b => .concat ["mismatched ", Text.quoted [b.closing]]
  | unclosed b => .concat ["unclosed ", Text.quoted [b.opening]]
  | unterminatedBlock => "unterminated param() block"
  | expectedSeparator found =>
    .concat ["expected ',' or ')' after parameter, found ", Text.quoted [found]]
  | missingDefault => "missing default value"
  | unterminatedVariable => "unterminated $\x7b...\x7d variable"
  | expectedVariable => "expected a parameter variable such as $Name"
  | unexpectedClosing b => .concat ["unexpected ", Text.quoted [b.closing]]
  | expectedTag => "expected an attribute or type name"
  | unexpectedText => "unexpected text in attribute"
  | textAfterArguments => "unexpected text after attribute arguments"
  | emptyArgument => "empty attribute argument"
  | missingArgumentValue name => .concat ["missing value for attribute argument ", name.quoted]

/-- A reason, and how many characters of the text are left from its place on. -/
structure Fault where
  reason : Reason
  left : Nat
  deriving DecidableEq, Repr

/-- A place in a text; lines and columns count from 1. -/
structure Position where
  line : Nat
  column : Nat
  deriving DecidableEq, Repr

/-- The place right after `before`. -/
def Position.after (before : Text) : Position where
  line := before.count (.char '\n') + 1
  column := (before.reverse.takeWhile (· ≠ .char '\n')).length + 1

/-- Where in `text` the fault is. -/
def Fault.position (text : Text) (f : Fault) : Position :=
  .after (text.take (text.length - f.left))

/-- Why reading stopped: a fault of the text, or a character asked for past its end. -/
inductive ReadError where
  | fault (f : Fault)
  | overrun
  deriving DecidableEq, Repr

end CondParam
