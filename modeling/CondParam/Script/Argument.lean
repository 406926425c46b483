import CondParam.Script
import CondParam.Script.Group

/-!
# Attribute arguments

The text between the parentheses of an attribute is cut into spans: commas outside groups, comments,
and everything else. Between two commas stands one argument, the kept text without its comments. An
argument is named if it is an identifier, alone or before a single `=`, and positional otherwise.
-/

set_option autoImplicit false

namespace CondParam

inductive Span where
  | code (t : Text)
  | comment (t : Text)
  | comma
  deriving DecidableEq, Repr

namespace Span

/-- The source text of the span. -/
def source : Span → Text
  | code t => t
  | comment t => t
  | comma => [',']

end Span

/-- The spans of a text down to the place where `stop` characters are left. -/
def argumentSpans (stop : Nat) (fresh : Bool) : Text → Except Fault (List Span)
  | [] => .ok []
  | c :: cs =>
    if cs.length + 1 ≤ stop then .ok []
    else match Item.next fresh c cs with
      | .error f => .error f
      | .ok (.comment, n) =>
        (argumentSpans stop false (cs.drop n)).map (.comment (c :: cs.take n) :: ·)
      | .ok (.opening b, _) =>
        match b.groupTail cs with
        | .error f => .error f
        | .ok n => (argumentSpans stop false (cs.drop n)).map (.code (c :: cs.take n) :: ·)
      | .ok (item, n) =>
        let spans := argumentSpans stop item.startsToken (cs.drop n)
        if c = ',' then spans.map (.comma :: ·) else spans.map (.code (c :: cs.take n) :: ·)
termination_by cs => cs.length
decreasing_by all_goals simp only [List.length_drop, List.length_cons]; omega

/-- The kept text of an argument and how far behind the opening parenthesis it starts. -/
structure Piece where
  start : Nat
  text : Text
  deriving DecidableEq, Repr

/-- The pieces between the commas; `offset` is where the next span starts, `piece` what has been
kept of the piece it belongs to. -/
def piecesFrom (offset : Nat) (piece : Piece) : List Span → List Piece
  | [] => [piece]
  | .code t :: spans =>
    piecesFrom (offset + t.length) { piece with text := piece.text ++ t } spans
  | .comment t :: spans => piecesFrom (offset + t.length) piece spans
  | .comma :: spans => piece :: piecesFrom (offset + 1) ⟨offset + 1, []⟩ spans

/-- The arguments' texts; a single blank piece is no argument. -/
def argumentPieces (spans : List Span) : List Piece :=
  match piecesFrom 0 ⟨0, []⟩ spans with
  | [piece] => if piece.text.isBlank then [] else [piece]
  | pieces => pieces

inductive Argument where
  | positional (t : Text)
  | named (a : NamedArgument)
  deriving DecidableEq, Repr

/-- An identifier and what follows its `=`, which no second `=` may follow. -/
def splitAssignment? (t : Text) : Option (Text × Text) :=
  match t.identifierLength with
  | 0 => none
  | n =>
    match (t.drop n).dropWhile isSpace with
    | .char '=' :: value =>
      if value.head? = some (.char '=') then none else some (t.take n, Text.strip value)
    | _ => none

/-- Reads one argument from its kept text. -/
def readArgument (piece : Text) : Except Reason Argument :=
  let t := piece.strip
  if t.isEmpty then .error .emptyArgument
  else match splitAssignment? t with
    | some (name, value) =>
      if value.isEmpty then .error (.missingArgumentValue name) else .ok (.named ⟨name, some value⟩)
    | none => if t.isIdentifier then .ok (.named ⟨t, none⟩) else .ok (.positional t)

/-- Reads the arguments in order. `left` characters are left behind the opening parenthesis. -/
def readArguments (left : Nat) : List Piece → Except Fault (List Argument)
  | [] => .ok []
  | piece :: pieces =>
    match readArgument piece.text with
    | .error reason => .error ⟨reason, left - piece.start⟩
    | .ok a => (readArguments left pieces).map (a :: ·)

/-- The arguments in a list of a given length at the front of a text. -/
def splitArguments (list : Read Text) : Except Fault (List Argument) :=
  match argumentSpans ((list.value.drop list.length).length + 1) true list.value with
  | .error f => .error f
  | .ok spans => readArguments list.value.length (argumentPieces spans)

/-- The positional arguments in order. -/
def positionalArguments (args : List Argument) : List Text :=
  args.filterMap fun
    | .positional t => some t
    | .named _ => none

/-- The named arguments in order. -/
def namedArguments (args : List Argument) : List NamedArgument :=
  args.filterMap fun
    | .positional _ => none
    | .named a => some a

end CondParam
