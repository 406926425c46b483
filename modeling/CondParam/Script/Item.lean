import CondParam.Script.Fault

/-!
# Lexical items

What can stand at the front of a text inside a bracketed group: a string, a comment, an escaped
character, a bracket, or any other character. `Item.next` tells which, and how many characters the
item has after its first. A `#` opens a comment only where a token can start, so the readers carry
along whether the last item left them at such a place (`Item.startsToken`).
-/

set_option autoImplicit false

namespace CondParam

/-- The character that escapes the next one. -/
def backtick : CodePoint := '\x60'

def isQuote (c : CodePoint) : Bool := c == '\x27' || c == '\x22'

/-- How many characters of a string in quotes `q` follow its opening quote, the closing one
included. A doubled quote stands for one quote; in double quotes a backtick takes the next character
along. -/
def quotedTail (q : CodePoint) : Text → Option Nat
  | [] => none
  | [c] => if c = q then some 1 else none
  | c :: d :: cs =>
    if q = '\x22' ∧ c = backtick then (quotedTail q cs).map (· + 2)
    else if c = q then if d = q then (quotedTail q cs).map (· + 2) else some 1
    else (quotedTail q (d :: cs)).map (· + 1)

/-- A here-string opens where a quote follows the `@` and nothing else stands on the line. -/
def opensHereString : Text → Bool
  | [] => false
  | q :: cs => isQuote q && Text.isBlank (cs.takeWhile (· ≠ .char '\n'))

/-- How many characters of a here-string follow its `@`: it ends at the first line that starts with
its quote and another `@`. -/
def hereStringTail : Text → Option Nat
  | [] => none
  | q :: cs => (Text.through ['\n', q, '@'] cs).map (· + 1)

/-- If a string opens with `c`, how many characters of it follow. -/
def stringTail? (c : CodePoint) (cs : Text) : Option (Except Fault Nat) :=
  if isQuote c then
    match quotedTail c cs with
    | some n => some (.ok n)
    | none => some (.error ⟨.unterminatedString, cs.length + 1⟩)
  else if c = '@' && opensHereString cs then
    match hereStringTail cs with
    | some n => some (.ok n)
    | none => some (.error ⟨.unterminatedHereString, cs.length + 1⟩)
  else none

/-- If a comment opens with `c`, how many characters of it follow. A block comment may open
anywhere; a line comment only where a token can start, and it ends before the newline. -/
def commentTail? (fresh : Bool) (c : CodePoint) (cs : Text) : Option (Except Fault Nat) :=
  if c = '<' ∧ cs.head? = some (.char '#') then
    match Text.through ['#', '>'] (cs.drop 1) with
    | some n => some (.ok (n + 1))
    | none => some (.error ⟨.unterminatedComment, cs.length + 1⟩)
  else if fresh ∧ c = '#' then some (.ok (cs.takeWhile (· ≠ .char '\n')).length)
  else none

inductive Item where
  | string
  | comment
  | escape (escaped : Option CodePoint)
  | opening (b : Bracket)
  | closing (b : Bracket)
  | plain (c : CodePoint)
  deriving DecidableEq, Repr

namespace Item

/-- The characters after which a token can start. -/
def endsToken (c : CodePoint) : Bool := isSpace c || ("([\x7b;," : Text).contains c

/-- Whether a token can start right after the item. -/
def startsToken : Item → Bool
  | string => false
  | comment => false
  | escape c => c.any endsToken
  | opening _ => true
  | closing _ => false
  | plain c => endsToken c

/-- The item that starts with `c`, and how many characters of it follow. -/
def next (fresh : Bool) (c : CodePoint) (cs : Text) : Except Fault (Item × Nat) :=
  match stringTail? c cs with
  | some (.ok n) => .ok (string, n)
  | some (.error f) => .error f
  | none =>
    match commentTail? fresh c cs with
    | some (.ok n) => .ok (comment, n)
    | some (.error f) => .error f
    | none =>
      if c = backtick then .ok (escape cs.head?, (cs.take 1).length)
      else match Bracket.ofOpening? c, Bracket.ofClosing? c with
        | some b, _ => .ok (opening b, 0)
        | none, some b => .ok (closing b, 0)
        | none, none => .ok (plain c, 0)

end Item

end CondParam
