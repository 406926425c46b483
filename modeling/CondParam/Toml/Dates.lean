import CondParam.Data

/-!
# TOML dates and times

A date is `2024-01-31`, a time `10:00:00` with any fraction of its second, of which six digits
count. A date and a time have a `T` or a blank between them, and may have an offset behind them. A
date that is not in the calendar makes the document malformed; whatever else is no date or time may
still be a number.
-/

set_option autoImplicit false

namespace CondParam.Toml

/-- The number in the first `count` characters, if they are digits. -/
def readDigits? (count : Nat) (t : Text) : Option Nat :=
  let digits := t.take count
  if digits.length = count && digits.all CodePoint.isDigit then some (natOfDigits digits) else none

/-- The number below `bound` in the first two characters. -/
def readBelow? (bound : Nat) (t : Text) : Option (Fin bound) :=
  match readDigits? 2 t with
  | none => none
  | some n => if h : n < bound then some ⟨n, h⟩ else none

/-- The microseconds in the digits of a fraction. -/
def microsecondsOf (digits : Text) : Fin 1000000 :=
  let padded := digits.take 6 ++ List.replicate (6 - digits.length) (.char '0')
  Fin.ofNat 1000000 (natOfDigits padded)

/-- Reads a time of day. -/
def readClock? (t : Text) : Option (Read Clock) :=
  match readBelow? 24 t, readBelow? 60 (t.drop 3), readBelow? 60 (t.drop 6) with
  | some hour, some minute, some second =>
    if t[2]? = some (.char ':') ∧ t[5]? = some (.char ':') then
      let digits := (t.drop 9).takeWhile CodePoint.isDigit
      if t[8]? = some (.char '.') ∧ digits ≠ [] then
        some ⟨⟨hour, minute, second, microsecondsOf digits⟩, 9 + digits.length⟩
      else some ⟨⟨hour, minute, second, 0⟩, 8⟩
    else none
  | _, _, _ => none

/-- Reads an offset, if there is one. -/
def readOffset (t : Text) : Read (Option Offset) :=
  match t with
  | [] => ⟨none, 0⟩
  | c :: cs =>
    if c = 'Z' ∨ c = 'z' then ⟨some ⟨false, 0, 0⟩, 1⟩
    else if c = '+' ∨ c = '-' then
      match readBelow? 24 cs, readBelow? 60 (cs.drop 3) with
      | some hour, some minute =>
        if cs[2]? = some (.char ':') then ⟨some ⟨c = '-', hour, minute⟩, 6⟩ else ⟨none, 0⟩
      | _, _ => ⟨none, 0⟩
    else ⟨none, 0⟩

/-- Reads a date, if one is written: a month up to 12, a day up to 31. -/
def readDay (t : Text) : Except DataFault (Option Day) :=
  match readDigits? 4 t, readDigits? 2 (t.drop 5), readDigits? 2 (t.drop 8) with
  | some year, some month, some day =>
    if t[4]? = some (.char '-') ∧ t[7]? = some (.char '-') ∧
        (1 ≤ month ∧ month ≤ 12) ∧ (1 ≤ day ∧ day ≤ 31) then
      (wellFormed (Day.ofParts? year month day)).map some
    else .ok none
  | _, _, _ => .ok none

/-- Reads what follows a date: a time and an offset, or nothing. -/
def readAfterDay (d : Day) (t : Text) : Read Moment :=
  let separated := t.head?.any fun c : CodePoint => c == 'T' || c == 't' || c == ' '
  match readClock? (t.drop 1) with
  | some c =>
    if separated then
      let offset := readOffset (t.drop (1 + c.length))
      ⟨.both d c.value offset.value, 1 + c.length + offset.length⟩
    else ⟨.day d, 0⟩
  | none => ⟨.day d, 0⟩

/-- Reads a date, a time or both, if one of them is written. -/
def readMoment (t : Text) : Except DataFault (Option (Read Moment)) :=
  match readDay t with
  | .error e => .error e
  | .ok (some d) => .ok (some ((readAfterDay d (t.drop 10)).plus 10))
  | .ok none => .ok ((readClock? t).map fun c => ⟨.clock c.value, c.length⟩)

end CondParam.Toml
