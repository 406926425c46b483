import CondParam.Text

/-!
# Dates and times

A day of the calendar, a time of day, or both, with or without an offset from universal time. Each
is in range by its type. A moment has two texts: its own, `2024-01-01 10:00:00+01:00`, and the one
that it has inside a list or a table, where its parts are named one by one.
-/

set_option autoImplicit false

namespace CondParam

/-- A natural number in decimal, with zeros in front up to `width` digits. -/
def Text.ofNatWide (width n : Nat) : Text :=
  let digits := ofNat n
  List.replicate (width - digits.length) (.char '0') ++ digits

def isLeapYear (year : Nat) : Bool := year % 4 == 0 && (year % 100 != 0 || year % 400 == 0)

def daysInMonth (year month : Nat) : Nat :=
  if month = 2 then if isLeapYear year then 29 else 28
  else if month = 4 ∨ month = 6 ∨ month = 9 ∨ month = 11 then 30
  else 31

/-- A day of the calendar. -/
structure Day where
  year : Nat
  month : Nat
  day : Nat
  year_range : 1 ≤ year ∧ year ≤ 9999
  month_range : 1 ≤ month ∧ month ≤ 12
  day_range : 1 ≤ day ∧ day ≤ daysInMonth year month
  deriving DecidableEq, Repr

/-- A time of day. -/
structure Clock where
  hour : Fin 24
  minute : Fin 60
  second : Fin 60
  microsecond : Fin 1000000
  deriving DecidableEq, Repr

/-- How far a clock is ahead of universal time, or behind it. -/
structure Offset where
  negative : Bool
  hour : Fin 24
  minute : Fin 60
  deriving DecidableEq, Repr

inductive Moment where
  | day (d : Day)
  | clock (c : Clock)
  | both (d : Day) (c : Clock) (offset : Option Offset)
  deriving DecidableEq, Repr

namespace Day

/-- The day with a year, a month and a day of the month, if there is one. -/
def ofParts? (year month day : Nat) : Option Day :=
  if h : (1 ≤ year ∧ year ≤ 9999) ∧ (1 ≤ month ∧ month ≤ 12) ∧
      (1 ≤ day ∧ day ≤ daysInMonth year month) then
    some ⟨year, month, day, h.1, h.2.1, h.2.2⟩
  else none

def display (d : Day) : Text :=
  .concat [.ofNatWide 4 d.year, "-", .ofNatWide 2 d.month, "-", .ofNatWide 2 d.day]

/-- The parts of a day one by one. -/
def parts (d : Day) : List Text := [.ofNat d.year, .ofNat d.month, .ofNat d.day]

end Day

namespace Clock

/-- A fraction of a second is shown in six digits, or not at all. -/
def display (c : Clock) : Text :=
  let fraction : Text :=
    if c.microsecond.val = 0 then [] else '.' :: Text.ofNatWide 6 c.microsecond.val
  .concat [.ofNatWide 2 c.hour.val, ":", .ofNatWide 2 c.minute.val, ":",
    .ofNatWide 2 c.second.val, fraction]

/-- The parts of a time one by one, without the zeros behind its minute. -/
def parts (c : Clock) : List Text :=
  let tail : List Text :=
    if c.microsecond.val ≠ 0 then [.ofNat c.second.val, .ofNat c.microsecond.val]
    else if c.second.val ≠ 0 then [.ofNat c.second.val]
    else []
  [.ofNat c.hour.val, .ofNat c.minute.val] ++ tail

end Clock

namespace Offset

/-- The minutes of an offset without its sign. -/
def minutes (o : Offset) : Nat := 60 * o.hour.val + o.minute.val

/-- No offset is shown as one ahead. -/
def display (o : Offset) : Text :=
  let sign : Text := if o.negative ∧ o.minutes ≠ 0 then "-" else "+"
  .concat [sign, .ofNatWide 2 o.hour.val, ":", .ofNatWide 2 o.minute.val]

/-- An offset inside a list or a table: in seconds, and one behind as a day back and seconds
ahead. -/
def nested (o : Offset) : Text :=
  if o.minutes = 0 then "datetime.timezone.utc"
  else
    let span : Text :=
      if o.negative then .concat ["days=-1, seconds=", .ofNat (86400 - 60 * o.minutes)]
      else .concat ["seconds=", .ofNat (60 * o.minutes)]
    .concat ["datetime.timezone(datetime.timedelta(", span, "))"]

end Offset

namespace Moment

def display : Moment → Text
  | day d => d.display
  | clock c => c.display
  | both d c offset => .concat [d.display, " ", c.display, (offset.map (·.display)).getD []]

/-- A moment inside a list or a table. -/
def nested : Moment → Text
  | day d => .concat ["datetime.date(", .join ", " d.parts, ")"]
  | clock c => .concat ["datetime.time(", .join ", " c.parts, ")"]
  | both d c offset =>
    let zone : List Text := (offset.map fun o => [.concat ["tzinfo=", o.nested]]).getD []
    .concat ["datetime.datetime(", .join ", " (d.parts ++ c.parts ++ zone), ")"]

end Moment

end CondParam
