import CondParam.Toml.Dates
import CondParam.Toml.Numbers
import CondParam.Toml.Strings
import CondParam.Toml.Table

/-!
# TOML values

Strings, booleans, numbers, dates and times, arrays and inline tables. Arrays may go over several
lines and hold comments; inline tables may not. Values of an inline table that are themselves arrays
or tables cannot be added to.
-/

set_option autoImplicit false

namespace CondParam.Toml

/-- How many characters of white space and comments stand at the front, over any number of lines. -/
def gapLength : Text → Option Nat
  | [] => some 0
  | c :: cs =>
    if isGap c then (gapLength cs).map (· + 1)
    else if c = '#' then
      let comment := cs.takeWhile (· ≠ .char '\n')
      if comment.any isControl then none
      else (gapLength (cs.drop comment.length)).map (· + (comment.length + 1))
    else some 0
termination_by cs => cs.length

/-- An inline table under construction: its entries and the keys whose values are closed. -/
structure Inline where
  entries : Entries := []
  closed : List (List Text) := []

/-- The inline table with one more pair. -/
def Inline.add (t : Inline) (key : List Text) (value : Data) : Option Inline :=
  if covers t.closed key then none
  else (updatePath false (newValue value) key t.entries).map fun entries =>
    ⟨entries, if isContainer value then t.closed ++ [key] else t.closed⟩

/-- How much of the nesting an array takes. -/
def arrayWeight : Nat := 2

/-- How much of the nesting an inline table takes. -/
def inlineWeight : Nat := 3

mutual

/-- Reads a value; arrays and inline tables in it may be nested as far as `room` allows. -/
def readValue (room : Nat) (t : Text) : Except DataFault (Read Data) :=
  match t with
  | [] => .error .malformed
  | c :: cs =>
    if c = '\x22' ∨ c = '\x27' then
      wellFormed ((readString c cs).map fun r => ⟨.text r.value, r.length⟩)
    else if List.isPrefixOf "true" (c :: cs) then .ok ⟨.bool true, 4⟩
    else if List.isPrefixOf "false" (c :: cs) then .ok ⟨.bool false, 5⟩
    else if c = '[' then
      if room < arrayWeight then .error .tooDeep
      else match gapLength cs with
      | none => .error .malformed
      | some g =>
        if (cs.drop g).head? = some (.char ']') then .ok ⟨.list [], g + 2⟩
        else (readItems (room - arrayWeight) (cs.drop g)).map fun r =>
          ⟨.list r.value, r.length + (g + 1)⟩
    else if c = '{' then
      let b := blanks cs
      if room < inlineWeight then .error .tooDeep
      else if (cs.drop b).head? = some (.char '}') then .ok ⟨.table [], b + 2⟩
      else (readPairs (room - inlineWeight) {} (cs.drop b)).map fun r =>
        ⟨.table r.value, r.length + (b + 1)⟩
    else match readMoment (c :: cs) with
      | .error e => .error e
      | .ok (some m) => .ok ⟨.moment m.value, m.length⟩
      | .ok none => readNumber (c :: cs)
termination_by (t.length, 0)
decreasing_by all_goals simp [Prod.lex_def]; try omega

/-- Reads the items of an array, and its closing bracket. A comma may stand behind the last. -/
def readItems (room : Nat) (t : Text) : Except DataFault (Read (List Data)) :=
  match t with
  | [] => .error .malformed
  | c :: cs =>
    match readValue room (c :: cs) with
    | .error e => .error e
    | .ok first =>
      let rest := (c :: cs).drop first.length
      match gapLength rest with
      | none => .error .malformed
      | some g =>
        match (rest.drop g).head? with
        | some (.char ']') => .ok ⟨[first.value], first.length + g + 1⟩
        | some (.char ',') =>
          match gapLength ((rest.drop g).drop 1) with
          | none => .error .malformed
          | some g' =>
            let next := ((rest.drop g).drop 1).drop g'
            if next.head? = some (.char ']') then
              .ok ⟨[first.value], first.length + g + 1 + g' + 1⟩
            else (readItems room next).map fun r =>
              ⟨first.value :: r.value, r.length + (first.length + g + 1 + g')⟩
        | _ => .error .malformed
termination_by (t.length, 1)
decreasing_by all_goals simp [Prod.lex_def]; try omega

/-- Reads the pairs of an inline table, and its closing brace, and adds them to what there is. -/
def readPairs (room : Nat) (table : Inline) (t : Text) : Except DataFault (Read Entries) :=
  match t with
  | [] => .error .malformed
  | c :: cs =>
    match readKey (c :: cs) with
    | none => .error .malformed
    | some key =>
      let rest := (c :: cs).drop key.length
      if rest.head? ≠ some (.char '=') then .error .malformed
      else
        let b := blanks (rest.drop 1)
        match readValue room ((rest.drop 1).drop b) with
        | .error e => .error e
        | .ok value =>
          match table.add key.value value.value with
          | none => .error .malformed
          | some table =>
            let rest' := ((rest.drop 1).drop b).drop value.length
            let b' := blanks rest'
            let used := key.length + 1 + b + value.length + b'
            match (rest'.drop b').head? with
            | some (.char '}') => .ok ⟨table.entries, used + 1⟩
            | some (.char ',') =>
              let b'' := blanks ((rest'.drop b').drop 1)
              (readPairs room table (((rest'.drop b').drop 1).drop b'')).map
                (.plus (used + 1 + b''))
            | _ => .error .malformed
termination_by (t.length, 1)
decreasing_by all_goals simp [Prod.lex_def]; try omega

end

end CondParam.Toml
