import CondParam.Script.Cursor.Scan
import CondParam.Script.Declaration
import CondParam.Script.Locate

/-!
# Reading by index

The reading of a script as scanners do it: one text, and a cursor that goes from the keyword over
the declarations, their annotations, arguments and defaults. Each scanner tests the characters in an
order of its own and keeps its own account of what it has passed. `Cursor.read` puts them together;
it gives what `Script.read` gives, at the same offsets.
-/

set_option autoImplicit false

namespace CondParam.Cursor

/-- A value, and where the cursor stands behind it. -/
structure At (α : Type) where
  value : α
  cursor : Nat
  deriving DecidableEq, Repr

/-! ## Finding the block -/

/-- The index behind the keyword and its parenthesis, if they stand at an index. -/
def keywordEnd? (t : Text) (i : Nat) : Option Nat :=
  (afterKeyword? (t.drop i)).map fun rest => t.length - rest.length

/-- Whether a dot stands right before an index. -/
def afterDot (t : Text) (i : Nat) : Scan Bool :=
  if i = 0 then return false else do return (← charAt t (i - 1)) == '.'

/-- The index behind the escape, the word or the character at an index, where `c` stands. -/
def wordEnd (t : Text) (i : Nat) (c : CodePoint) : Nat :=
  if c = backtick then i + 2
  else i + max 1 ((t.drop i).takeWhile isCommandChar).length

/-- A turn of the search for the block; `pending` are the attributes right before the index. -/
def locateTurn (t : Text) (pending : List Text) (i : Nat) :
    Scan (Turn (List Text) (Option (At (List Text)))) :=
  if i < t.length then do
    let c ← charAt t i
    if isSpace c then return .next pending (i + 1)
    else if opensBlock t i then return .next pending (← commentEnd t i)
    else if c = '#' then return .next pending (lineEnd t i)
    else if ← opensString t i c then return .next [] (← stringEnd t i)
    else if c = '[' then
      let e ← groupEnd t i
      return .next (pending ++ [slice t i e]) e
    else match keywordEnd? t i with
      | none => return .next [] (wordEnd t i c)
      | some e =>
        if ← afterDot t i then return .next [] (wordEnd t i c)
        else return .done (some ⟨pending, e - 1⟩)
  else return .done none

theorem lt_wordEnd (t : Text) (i : Nat) (c : CodePoint) : i < wordEnd t i c := by
  unfold wordEnd
  split <;> omega

theorem locateTurn_ahead {t : Text} {pending pending' : List Text} {i j : Nat}
    (h : locateTurn t pending i = .ok (.next pending' j)) : i < t.length ∧ i < j := by
  unfold locateTurn at h
  split at h
  · rename_i hi
    refine ⟨hi, ?_⟩
    obtain ⟨c, hc, h⟩ := of_bind_eq_ok h
    split at h
    · cases h
      omega
    · split at h
      · obtain ⟨e, he, h⟩ := of_bind_eq_ok h
        cases h
        exact lt_commentEnd he
      · split at h
        · rename_i hline
          cases h
          exact lt_lineEnd hc (by rw [hline]; decide)
        · obtain ⟨string, -, h⟩ := of_bind_eq_ok h
          split at h
          · obtain ⟨e, he, h⟩ := of_bind_eq_ok h
            cases h
            exact lt_stringEnd he
          · split at h
            · obtain ⟨e, he, h⟩ := of_bind_eq_ok h
              cases h
              exact lt_groupEnd he
            · split at h
              · cases h
                exact lt_wordEnd t i c
              · obtain ⟨dot, -, h⟩ := of_bind_eq_ok h
                split at h <;> cases h
                exact lt_wordEnd t i c
  · cases h

def locateLoop (t : Text) : Loop (List Text) (Option (At (List Text))) where
  bound := t.length
  turn := locateTurn t
  ahead := locateTurn_ahead

/-- The attributes of the first block and the index of its parenthesis. -/
def locate (t : Text) : Scan (Option (At (List Text))) := (locateLoop t).run [] 0

/-! ## Variables and expressions -/

/-- The name of the variable at an index. -/
def variableAt (t : Text) (i : Nat) : Scan (At Text) :=
  if startsWith t ['$', '{'] i then
    match findEnd? t ['}'] (i + 2) with
    | some e => .ok ⟨slice t (i + 2) (e - 1), e⟩
    | none => .error (.fault .unterminatedVariable i)
  else
    match (if startsWith t ['$'] i then readPlainName? (t.drop (i + 1)) else none) with
    | some r => .ok ⟨r.value, i + 1 + r.length⟩
    | none => .error (.fault .expectedVariable i)

/-- The index behind the string, the group, the escape or the character of an expression at an
index, where `c` stands. -/
def partEnd (t : Text) (i : Nat) (c : CodePoint) : Scan Nat := do
  if ← opensString t i c then stringEnd t i
  else match Bracket.ofOpening? c, Bracket.ofClosing? c with
    | some _, _ => groupEnd t i
    | none, some b => .error (.fault (.unexpectedClosing b) i)
    | none, none => return if c = backtick then i + 2 else i + 1

/-- A turn over an expression whose text, without the trivia behind it, ends at `last` so far. -/
def expressionTurn (t : Text) (last i : Nat) : Scan (Turn Nat (At Nat)) :=
  if i < t.length then do
    let c ← charAt t i
    if c = ',' ∨ c = ')' then return .done ⟨last, i⟩
    else if isSpace c then return .next last (i + 1)
    else if opensBlock t i then return .next last (← commentEnd t i)
    else if ← opensLine t i c then return .next last (lineEnd t i)
    else
      let e ← partEnd t i c
      return .next e e
  else return .done ⟨last, i⟩

theorem lt_partEnd {t : Text} {i e : Nat} {c : CodePoint} (h : partEnd t i c = .ok e) : i < e := by
  unfold partEnd at h
  obtain ⟨string, -, h⟩ := of_bind_eq_ok h
  split at h
  · exact lt_stringEnd h
  · split at h
    · exact lt_groupEnd h
    · cases h
    · cases h
      split <;> omega

theorem expressionTurn_moves {t : Text} {last i : Nat} {turn : Turn Nat (At Nat)}
    (h : expressionTurn t last i = .ok turn) : turn.Moves t.length i At.cursor := by
  unfold expressionTurn at h
  split at h
  · rename_i hi
    obtain ⟨c, hc, h⟩ := of_bind_eq_ok h
    split at h
    · cases h
      exact Nat.le_refl i
    · split at h
      · cases h
        exact ⟨hi, by omega⟩
      · split at h
        · obtain ⟨e, he, h⟩ := of_bind_eq_ok h
          cases h
          exact ⟨hi, lt_commentEnd he⟩
        · obtain ⟨line, hl, h⟩ := of_bind_eq_ok h
          split at h
          · rename_i hline
            cases h
            exact ⟨hi, lt_lineEnd_of_opensLine hc (hline ▸ hl)⟩
          · obtain ⟨e, he, h⟩ := of_bind_eq_ok h
            cases h
            exact ⟨hi, lt_partEnd he⟩
  · cases h
    exact Nat.le_refl i

def expressionLoop (t : Text) : Loop Nat (At Nat) where
  bound := t.length
  turn := expressionTurn t
  ahead := expressionTurn_moves

/-- Where the text of the expression at an index ends, and where the expression stops. -/
def expressionAt (t : Text) (start : Nat) : Scan (At Nat) := (expressionLoop t).run start start

/-! ## Arguments -/

/-- An argument list that is being split: the pieces so far, what is kept of the next one, where
that starts, and from where on the text is yet to be kept. -/
structure Splitting where
  pieces : List Piece
  kept : Text
  pieceStart : Nat
  segmentStart : Nat

/-- What is kept of the piece up to an index. -/
def Splitting.keptTo (s : Splitting) (t : Text) (i : Nat) : Text :=
  s.kept ++ slice t s.segmentStart i

/-- The pieces of a list that ends at an index; a single blank piece is no argument. -/
def Splitting.finish (s : Splitting) (t : Text) (stop : Nat) : List Piece :=
  if (s.keptTo t stop).isBlank && s.pieces.isEmpty then []
  else s.pieces ++ [⟨s.pieceStart, s.keptTo t stop⟩]

/-- Whether a comment of either kind starts at an index, where `c` stands. -/
def opensComment (t : Text) (i : Nat) (c : CodePoint) : Scan Bool :=
  if opensBlock t i then return true else opensLine t i c

/-- The index behind the comment at an index, where `c` stands; a line comment ends at `stop`. -/
def commentEndBelow (t : Text) (stop i : Nat) (c : CodePoint) : Scan Nat :=
  if c = '<' then commentEnd t i else return min (lineEnd t i) stop

/-- A turn over arguments. Pieces have the index where they start. -/
def splitTurn (t : Text) (stop : Nat) (s : Splitting) (i : Nat) :
    Scan (Turn Splitting Splitting) :=
  if i < stop then do
    let c ← charAt t i
    if ← opensString t i c then return .next s (← stringEnd t i)
    else if (Bracket.ofOpening? c).isSome then return .next s (← groupEnd t i)
    else if ← opensComment t i c then
      let e ← commentEndBelow t stop i c
      return .next { s with kept := s.keptTo t i, segmentStart := e } e
    else if c = backtick then return .next s (i + 2)
    else if c = ',' then
      return .next ⟨s.pieces ++ [⟨s.pieceStart, s.keptTo t i⟩], [], i + 1, i + 1⟩ (i + 1)
    else return .next s (i + 1)
  else return .done s

theorem lt_commentEndBelow {t : Text} {stop i e : Nat} {c : CodePoint} (hi : i < stop)
    (hc : charAt t i = .ok c) (ho : opensComment t i c = .ok true)
    (h : commentEndBelow t stop i c = .ok e) : i < e := by
  unfold commentEndBelow at h
  split at h
  · exact lt_commentEnd h
  · rename_i hlt
    rw [opensComment, opensBlock_eq_false hc hlt] at ho
    have := lt_lineEnd_of_opensLine hc ho
    cases h
    omega

theorem splitTurn_ahead {t : Text} {stop : Nat} {s s' : Splitting} {i j : Nat}
    (h : splitTurn t stop s i = .ok (.next s' j)) : i < stop ∧ i < j := by
  unfold splitTurn at h
  split at h
  · rename_i hi
    refine ⟨hi, ?_⟩
    obtain ⟨c, hc, h⟩ := of_bind_eq_ok h
    obtain ⟨string, -, h⟩ := of_bind_eq_ok h
    split at h
    · obtain ⟨e, he, h⟩ := of_bind_eq_ok h
      cases h
      exact lt_stringEnd he
    · split at h
      · obtain ⟨e, he, h⟩ := of_bind_eq_ok h
        cases h
        exact lt_groupEnd he
      · obtain ⟨comment, hcomment, h⟩ := of_bind_eq_ok h
        split at h
        · rename_i htrue
          obtain ⟨e, he, h⟩ := of_bind_eq_ok h
          cases h
          exact lt_commentEndBelow hi hc (htrue ▸ hcomment) he
        · split at h
          · cases h
            omega
          · split at h <;> cases h <;> omega
  · cases h

def splitLoop (t : Text) (stop : Nat) : Loop Splitting Splitting where
  bound := stop
  turn := splitTurn t stop
  ahead := splitTurn_ahead

/-- Reads the arguments of pieces in order. -/
def readPieces : List Piece → Scan (List Argument)
  | [] => .ok []
  | piece :: pieces =>
    match readArgument piece.text with
    | .error reason => .error (.fault reason piece.start)
    | .ok a => (readPieces pieces).map (a :: ·)

/-- The arguments from one index to another. -/
def argumentsAt (t : Text) (start stop : Nat) : Scan (List Argument) := do
  let s ← (splitLoop t stop).run ⟨[], [], start, start⟩ start
  readPieces (s.finish t stop)

/-! ## Annotations -/

/-- A turn over the square groups of a tag. -/
def tagTurn (t : Text) (close i : Nat) : Scan (Turn Unit Nat) :=
  if i < close then do
    let c ← charAt t i
    if c = '[' then return .next () (← groupEnd t i) else return .done i
  else return .done i

theorem tagTurn_moves {t : Text} {close i : Nat} {turn : Turn Unit Nat}
    (h : tagTurn t close i = .ok turn) : turn.Moves close i id := by
  unfold tagTurn at h
  split at h
  · rename_i hi
    obtain ⟨c, -, h⟩ := of_bind_eq_ok h
    split at h
    · obtain ⟨e, he, h⟩ := of_bind_eq_ok h
      cases h
      exact ⟨hi, lt_groupEnd he⟩
    · cases h
      exact Nat.le_refl i
  · cases h
    exact Nat.le_refl i

def tagLoop (t : Text) (close : Nat) : Loop Unit Nat where
  bound := close
  turn _ := tagTurn t close
  ahead := tagTurn_moves

/-- Reads what follows the tag of an annotation that closes at `close`. -/
def afterTagAt (t tag extent : Text) (close i : Nat) : Scan Annotation := do
  let after ← skipSpaces t close i
  if after = close then return { tag, kind := .typeConstraint, extent }
  else if (← charAt t after) = '(' then
    let e ← groupEnd t after
    if (← skipSpaces t close e) = close then
      let arguments ← argumentsAt t (after + 1) (e - 1)
      return { tag, kind := .attr, positional := positionalArguments arguments,
               named := namedArguments arguments, extent }
    else .error (.fault .textAfterArguments e)
  else .error (.fault .unexpectedText after)

/-- Reads the annotation whose bracket stands at an index. -/
def annotationAt (t : Text) (start : Nat) : Scan (At Annotation) := do
  let e ← groupEnd t start
  let close := e - 1
  let i ← skipSpaces t close (start + 1)
  match tagNameLength (slice t i close) with
  | 0 => .error (.fault .expectedTag i)
  | k =>
    let j ← (tagLoop t close).run () (i + k)
    let a ← afterTagAt t (slice t i j) (slice t start e) close j
    return ⟨a, e⟩

/-- A turn over annotations and the trivia behind them. -/
def annotationsTurn (t : Text) (annotations : List Annotation) (i : Nat) :
    Scan (Turn (List Annotation) (At (List Annotation))) := do
  if (← peek t i) = some (.char '[') then
    let a ← annotationAt t i
    return .next (annotations ++ [a.value]) (← skipTrivia t a.cursor)
  else return .done ⟨annotations, i⟩

theorem lt_annotationAt {t : Text} {i : Nat} {a : At Annotation} (h : annotationAt t i = .ok a) :
    i < a.cursor := by
  unfold annotationAt at h
  obtain ⟨e, he, h⟩ := of_bind_eq_ok h
  obtain ⟨j, -, h⟩ := of_bind_eq_ok h
  split at h
  · cases h
  · obtain ⟨k, -, h⟩ := of_bind_eq_ok h
    obtain ⟨x, -, h⟩ := of_bind_eq_ok h
    cases h
    exact lt_groupEnd he

theorem lt_length_of_peek {t : Text} {i : Nat} {c : CodePoint} (h : peek t i = .ok (some c)) :
    i < t.length := by
  unfold peek at h
  split at h
  · assumption
  · cases h

theorem annotationsTurn_moves {t : Text} {annotations : List Annotation} {i : Nat}
    {turn : Turn (List Annotation) (At (List Annotation))}
    (h : annotationsTurn t annotations i = .ok turn) : turn.Moves t.length i At.cursor := by
  unfold annotationsTurn at h
  obtain ⟨c, hc, h⟩ := of_bind_eq_ok h
  split at h
  · rename_i hb
    obtain ⟨a, ha, h⟩ := of_bind_eq_ok h
    obtain ⟨j, hj, h⟩ := of_bind_eq_ok h
    cases h
    exact ⟨lt_length_of_peek (hb ▸ hc), Nat.lt_of_lt_of_le (lt_annotationAt ha) (skipTrivia_le hj)⟩
  · cases h
    exact Nat.le_refl i

def annotationsLoop (t : Text) : Loop (List Annotation) (At (List Annotation)) where
  bound := t.length
  turn := annotationsTurn t
  ahead := annotationsTurn_moves

/-! ## Declarations -/

/-- Reads the default of a declaration that starts at `start`, behind its variable at `i`. -/
def defaultAt (t : Text) (start : Nat) (annotations : List Annotation) (name : At Text) :
    Scan (At Parameter) := do
  let i ← skipTrivia t name.cursor
  if (← peek t i) = some (.char '=') then
    let first ← skipTrivia t (i + 1)
    let reach ← expressionAt t first
    if (slice t first reach.value).isEmpty then .error (.fault .missingDefault first)
    else
      return ⟨{ name := name.value, annotations, default := some (slice t first reach.value),
                extent := slice t start reach.value }, reach.cursor⟩
  else return ⟨{ name := name.value, annotations, extent := slice t start name.cursor }, i⟩

/-- Reads the declaration at an index. -/
def parameterAt (t : Text) (start : Nat) : Scan (At Parameter) := do
  let front ← (annotationsLoop t).run [] start
  let name ← variableAt t front.cursor
  defaultAt t start front.value name

/-- Ends a turn at an index behind a declaration: a comma is passed over, a closing parenthesis and
the end of the text are left to the next turn. -/
def separatorTurn (t : Text) (parameters : List Parameter) (i : Nat) :
    Scan (Turn (List Parameter) (List Parameter)) := do
  match ← peek t i with
  | none => return .next parameters i
  | some c =>
    if c = ',' then return .next parameters (i + 1)
    else if c = ')' then return .next parameters i
    else .error (.fault (.expectedSeparator c) i)

/-- A turn over the declarations of the block whose parenthesis stands at `start`. -/
def parametersTurn (t : Text) (start : Nat) (parameters : List Parameter) (i : Nat) :
    Scan (Turn (List Parameter) (List Parameter)) := do
  let i ← skipTrivia t i
  match ← peek t i with
  | none => .error (.fault .unterminatedBlock start)
  | some c =>
    if c = ')' then return .done parameters
    else
      let p ← parameterAt t i
      separatorTurn t (parameters ++ [p.value]) (← skipTrivia t p.cursor)

theorem lt_variableAt {t : Text} {i : Nat} {name : At Text} (h : variableAt t i = .ok name) :
    i < name.cursor := by
  unfold variableAt at h
  split at h
  · split at h
    · rename_i he
      cases h
      have := findEnd?_le he
      simp only [List.length_singleton] at this
      simp only
      omega
    · cases h
  · split at h
    · cases h
      simp only
      omega
    · cases h

theorem le_defaultAt {t : Text} {start : Nat} {annotations : List Annotation} {name : At Text}
    {p : At Parameter} (h : defaultAt t start annotations name = .ok p) :
    name.cursor ≤ p.cursor := by
  unfold defaultAt at h
  obtain ⟨i, hi, h⟩ := of_bind_eq_ok h
  have hi := skipTrivia_le hi
  obtain ⟨c, -, h⟩ := of_bind_eq_ok h
  split at h
  · obtain ⟨first, hfirst, h⟩ := of_bind_eq_ok h
    obtain ⟨reach, hreach, h⟩ := of_bind_eq_ok h
    have hfirst := skipTrivia_le hfirst
    have hreach := Loop.le_of_run expressionTurn_moves hreach
    split at h <;> cases h
    show _ ≤ reach.cursor
    omega
  · cases h
    exact hi

theorem lt_parameterAt {t : Text} {i : Nat} {p : At Parameter} (h : parameterAt t i = .ok p) :
    i < p.cursor := by
  unfold parameterAt at h
  obtain ⟨front, hf, h⟩ := of_bind_eq_ok h
  obtain ⟨name, hn, h⟩ := of_bind_eq_ok h
  have := Loop.le_of_run annotationsTurn_moves hf
  have := lt_variableAt hn
  have := le_defaultAt h
  omega

theorem le_separatorTurn {t : Text} {i j : Nat} {ps ps' : List Parameter}
    (h : separatorTurn t ps i = .ok (.next ps' j)) : i ≤ j := by
  unfold separatorTurn at h
  obtain ⟨c, -, h⟩ := of_bind_eq_ok h
  split at h
  · cases h
    exact Nat.le_refl i
  · split at h
    · cases h
      exact Nat.le_succ i
    · split at h <;> cases h
      exact Nat.le_refl i

theorem parametersTurn_ahead {t : Text} {start i j : Nat} {ps ps' : List Parameter}
    (h : parametersTurn t start ps i = .ok (.next ps' j)) : i < t.length ∧ i < j := by
  unfold parametersTurn at h
  obtain ⟨k, hk, h⟩ := of_bind_eq_ok h
  have hk := skipTrivia_le hk
  obtain ⟨c, hc, h⟩ := of_bind_eq_ok h
  split at h
  · cases h
  · have hlt := lt_length_of_peek hc
    split at h
    · cases h
    · obtain ⟨p, hp, h⟩ := of_bind_eq_ok h
      obtain ⟨m, hm, h⟩ := of_bind_eq_ok h
      have hp := lt_parameterAt hp
      have hm := skipTrivia_le hm
      have hj := le_separatorTurn h
      omega

def parametersLoop (t : Text) (start : Nat) : Loop (List Parameter) (List Parameter) where
  bound := t.length
  turn := parametersTurn t start
  ahead := parametersTurn_ahead

/-- Reads the declarations of the block whose parenthesis stands at an index. -/
def parametersAt (t : Text) (start : Nat) : Scan (List Parameter) :=
  (parametersLoop t start).run [] (start + 1)

/-- Reads the first block of a text. -/
def read (t : Text) : Scan Script := do
  match ← locate t with
  | none => return {}
  | some located =>
    let parameters ← parametersAt t located.cursor
    return { block := some { parameters, attributes := located.value } }

end CondParam.Cursor
