import CondParam.Script.Item

/-!
# Scanning by index

The readers of this library take a text apart from its front. A scanner instead keeps the whole text
and moves a cursor over it: it asks for characters by their index (`charAt`), and a character that
is not there stops it (`Stop.outside`). Whether an index is in range is up to the scanner, which
tests it where it may not be; an escape moves the cursor by two, and so past the end where the text
ends with a backtick.

A scanner's loops are a turn, repeated (`Loop`). Searching for a mark, cutting a piece out and
matching a pattern are operations on the text as a whole, and never stop a scanner.
-/

set_option autoImplicit false

namespace CondParam.Cursor

/-- Why scanning stops. -/
inductive Stop where
  | fault (reason : Reason) (offset : Nat)
  /-- A character was asked for where there is none. -/
  | outside (index : Nat)
  /-- A group was asked for where no bracket opens. -/
  | noBracket (index : Nat)
  deriving DecidableEq, Repr

abbrev Scan := Except Stop

section
variable {α β : Type}

@[simp] theorem ok_bind (a : α) (f : α → Scan β) : (Except.ok a >>= f : Scan β) = f a := rfl

@[simp] theorem error_bind (e : Stop) (f : α → Scan β) :
    (Except.error e >>= f : Scan β) = .error e := rfl

@[simp] theorem pure_eq_ok (a : α) : (pure a : Scan α) = .ok a := rfl

theorem of_bind_eq_ok {x : Scan α} {f : α → Scan β} {b : β} (h : x >>= f = .ok b) :
    ∃ a, x = .ok a ∧ f a = .ok b := by
  cases x with
  | error e => cases h
  | ok a => exact ⟨a, rfl, h⟩

end

/-! ## Characters and pieces -/

/-- The character at an index. -/
def charAt (t : Text) (i : Nat) : Scan CodePoint :=
  match t[i]? with
  | some c => .ok c
  | none => .error (.outside i)

/-- The character at an index, if there is one. -/
def peek (t : Text) (i : Nat) : Scan (Option CodePoint) :=
  if i < t.length then do return some (← charAt t i) else return none

/-- Whether a mark stands at an index. -/
def startsWith (t mark : Text) (i : Nat) : Bool := mark.isPrefixOf (t.drop i)

/-- The index behind the first occurrence of a mark, from an index on. -/
def findEnd? (t mark : Text) (i : Nat) : Option Nat := (Text.through mark (t.drop i)).map (i + ·)

/-- The text from one index to another, as far as there is any. -/
def slice (t : Text) (i j : Nat) : Text := (t.take j).drop i

/-! ## Loops -/

/-- What one turn of a loop comes to. -/
inductive Turn (σ ρ : Type) where
  | done (result : ρ)
  | next (state : σ) (index : Nat)

/-- The turn starts at `i`. It goes on ahead, and only from below the bound, and a result is not
behind. -/
def Turn.Moves {σ ρ : Type} (bound i : Nat) (position : ρ → Nat) : Turn σ ρ → Prop
  | done r => i ≤ position r
  | next _ j => i < bound ∧ i < j

/-- A loop over indices: it goes on only from an index below its bound, and only ahead. -/
structure Loop (σ ρ : Type) where
  bound : Nat
  turn : σ → Nat → Scan (Turn σ ρ)
  ahead : ∀ {s i s' j}, turn s i = .ok (.next s' j) → i < bound ∧ i < j

namespace Loop

variable {σ ρ : Type} (l : Loop σ ρ)

/-- Takes turns until one gives a result. -/
def run (s : σ) (i : Nat) : Scan ρ :=
  match _h : l.turn s i with
  | .error e => .error e
  | .ok (.done r) => .ok r
  | .ok (.next s' j) => run s' j
termination_by l.bound - i
decreasing_by
  have := l.ahead _h
  omega

variable {l} {s : σ} {i : Nat}

theorem run_error {e : Stop} (h : l.turn s i = .error e) : l.run s i = .error e := by
  rw [run]
  split <;> simp_all

theorem run_done {r : ρ} (h : l.turn s i = .ok (.done r)) : l.run s i = .ok r := by
  rw [run]
  split <;> simp_all

theorem run_next {s' : σ} {j : Nat} (h : l.turn s i = .ok (.next s' j)) :
    l.run s i = l.run s' j := by
  rw [run]
  split <;> simp_all

/-- What holds of a turn if it holds after it holds of the loop. -/
theorem induction (l : Loop σ ρ) {P : σ → Nat → Prop}
    (step : ∀ s i, (∀ s' j, l.turn s i = .ok (.next s' j) → P s' j) → P s i) (s : σ) (i : Nat) :
    P s i :=
  step s i fun s' j _ => induction l step s' j
termination_by l.bound - i
decreasing_by
  rename_i h
  have := l.ahead h
  omega

/-- A loop ends no further back than it starts. -/
theorem le_of_run {position : ρ → Nat}
    (hl : ∀ {s i turn}, l.turn s i = .ok turn → turn.Moves l.bound i position) {r : ρ}
    (h : l.run s i = .ok r) : i ≤ position r := by
  revert h
  induction s, i using l.induction with
  | step s i ih =>
    intro h
    cases ht : l.turn s i with
    | error e => cases (run_error ht).symm.trans h
    | ok turn =>
      cases turn with
      | done r' =>
        cases (run_done ht).symm.trans h
        exact hl ht
      | next s' j =>
        rw [run_next ht] at h
        exact Nat.le_trans (Nat.le_of_lt (l.ahead ht).2) (ih s' j ht h)

end Loop

/-! ## Strings -/

/-- Whether a here-string starts at an index. -/
def startsHereString (t : Text) (i : Nat) : Scan Bool := do
  let c ← charAt t i
  if c ≠ '@' ∨ t.length ≤ i + 1 then return false
  else
    let q ← charAt t (i + 1)
    return isQuote q && Text.isBlank ((t.drop (i + 2)).takeWhile (· ≠ .char '\n'))

/-- Whether a string starts at an index, where `c` stands. -/
def opensString (t : Text) (i : Nat) (c : CodePoint) : Scan Bool :=
  if isQuote c then return true else startsHereString t i

/-- A turn of the search for the quote that closes a string. -/
def quotedTurn (t : Text) (quote : CodePoint) (start i : Nat) : Scan (Turn Unit Nat) :=
  if i < t.length then do
    let c ← charAt t i
    if quote = '\x22' ∧ c = backtick then return .next () (i + 2)
    else if c = quote then
      if (← peek t (i + 1)) = some quote then return .next () (i + 2) else return .done (i + 1)
    else return .next () (i + 1)
  else .error (.fault .unterminatedString start)

theorem quotedTurn_moves {t : Text} {quote : CodePoint} {start i : Nat}
    {turn : Turn Unit Nat} (h : quotedTurn t quote start i = .ok turn) :
    turn.Moves t.length i id := by
  unfold quotedTurn at h
  split at h
  · rename_i hi
    obtain ⟨c, -, h⟩ := of_bind_eq_ok h
    split at h
    · cases h
      exact ⟨hi, by omega⟩
    · split at h
      · obtain ⟨d, -, h⟩ := of_bind_eq_ok h
        split at h <;> cases h
        · exact ⟨hi, by omega⟩
        · exact Nat.le_succ i
      · cases h
        exact ⟨hi, by omega⟩
  · cases h

def quotedLoop (t : Text) (quote : CodePoint) (start : Nat) : Loop Unit Nat where
  bound := t.length
  turn _ := quotedTurn t quote start
  ahead := quotedTurn_moves

/-- The index behind the string that starts at an index. -/
def stringEnd (t : Text) (start : Nat) : Scan Nat := do
  let c ← charAt t start
  if c = '@' then
    let q ← charAt t (start + 1)
    match findEnd? t ['\n', q, '@'] (start + 2) with
    | some e => return e
    | none => .error (.fault .unterminatedHereString start)
  else (quotedLoop t c start).run () (start + 1)

/-! ## Comments -/

/-- The index behind the block comment that starts at an index. -/
def commentEnd (t : Text) (start : Nat) : Scan Nat :=
  match findEnd? t ['#', '>'] (start + 2) with
  | some e => .ok e
  | none => .error (.fault .unterminatedComment start)

/-- The index of the next newline, or of the end. -/
def lineEnd (t : Text) (start : Nat) : Nat :=
  match findEnd? t ['\n'] start with
  | some e => e - 1
  | none => t.length

/-- Whether a token can start at an index. -/
def commentAllowed (t : Text) (i : Nat) : Scan Bool :=
  if i = 0 then return true else do return Item.endsToken (← charAt t (i - 1))

/-- Whether a block comment starts at an index. -/
def opensBlock (t : Text) (i : Nat) : Bool := startsWith t ['<', '#'] i

/-- Whether a line comment starts at an index, where `c` stands. -/
def opensLine (t : Text) (i : Nat) (c : CodePoint) : Scan Bool :=
  if c = '#' then commentAllowed t i else return false

/-! ## Progress -/

theorem length_le_through {mark t : Text} {n : Nat} (h : Text.through mark t = some n) :
    mark.length ≤ n := by
  induction t generalizing n with
  | nil =>
    simp only [Text.through, List.isEmpty_iff] at h
    split at h <;> simp_all
  | cons c t ih =>
    simp only [Text.through] at h
    split at h
    · cases h
      exact Nat.le_refl _
    · obtain ⟨m, hm, rfl⟩ := Option.map_eq_some_iff.1 h
      exact Nat.le_succ_of_le (ih hm)

theorem findEnd?_le {t mark : Text} {i e : Nat} (h : findEnd? t mark i = some e) :
    i + mark.length ≤ e := by
  obtain ⟨n, hn, rfl⟩ := Option.map_eq_some_iff.1 h
  exact Nat.add_le_add_left (length_le_through hn) i

theorem lt_stringEnd {t : Text} {i e : Nat} (h : stringEnd t i = .ok e) : i < e := by
  unfold stringEnd at h
  obtain ⟨c, -, h⟩ := of_bind_eq_ok h
  split at h
  · obtain ⟨q, -, h⟩ := of_bind_eq_ok h
    split at h
    · rename_i he
      cases h
      have := findEnd?_le he
      omega
    · cases h
  · exact Loop.le_of_run quotedTurn_moves h

theorem lt_commentEnd {t : Text} {i e : Nat} (h : commentEnd t i = .ok e) : i < e := by
  unfold commentEnd at h
  split at h
  · rename_i he
    cases h
    have := findEnd?_le he
    omega
  · cases h

theorem charAt_eq_ok {t : Text} {i : Nat} {c : CodePoint} :
    charAt t i = .ok c ↔ t[i]? = some c := by
  unfold charAt
  cases t[i]? <;> simp

theorem drop_of_charAt {t : Text} {i : Nat} {c : CodePoint} (h : charAt t i = .ok c) :
    i < t.length ∧ t.drop i = c :: t.drop (i + 1) := by
  obtain ⟨hi, rfl⟩ := List.getElem?_eq_some_iff.1 (charAt_eq_ok.1 h)
  exact ⟨hi, List.drop_eq_getElem_cons hi⟩

theorem opensBlock_eq_false {t : Text} {i : Nat} {c : CodePoint} (hc : charAt t i = .ok c)
    (h : c ≠ '<') : opensBlock t i = false := by
  rw [opensBlock, startsWith, (drop_of_charAt hc).2]
  simp [List.isPrefixOf, Ne.symm h]

/-- The line of a character ends behind it, unless it is a newline. -/
theorem lt_lineEnd {t : Text} {i : Nat} {c : CodePoint} (h : charAt t i = .ok c) (hc : c ≠ '\n') :
    i < lineEnd t i := by
  obtain ⟨hi, hd⟩ := drop_of_charAt h
  unfold lineEnd
  split
  · rename_i e he
    obtain ⟨n, hn, rfl⟩ := Option.map_eq_some_iff.1 he
    have hp : ¬ List.isPrefixOf [CodePoint.char '\n'] (c :: t.drop (i + 1)) = true := by
      simpa using fun e => hc e.symm
    rw [hd, Text.through, if_neg hp] at hn
    obtain ⟨m, hm, rfl⟩ := Option.map_eq_some_iff.1 hn
    have := length_le_through hm
    simp only [List.length_singleton] at this
    omega
  · exact hi

/-! ## Blanks, groups and trivia -/

/-- A turn of the search for the end of white space, below a limit. -/
def spacesTurn (t : Text) (limit i : Nat) : Scan (Turn Unit Nat) :=
  if i < limit then do
    let c ← charAt t i
    if isSpace c then return .next () (i + 1) else return .done i
  else return .done i

theorem spacesTurn_moves {t : Text} {limit i : Nat} {turn : Turn Unit Nat}
    (h : spacesTurn t limit i = .ok turn) : turn.Moves limit i id := by
  unfold spacesTurn at h
  split at h
  · rename_i hi
    obtain ⟨c, -, h⟩ := of_bind_eq_ok h
    split at h <;> cases h
    · exact ⟨hi, Nat.lt_succ_self i⟩
    · exact Nat.le_refl i
  · cases h
    exact Nat.le_refl i

def spacesLoop (t : Text) (limit : Nat) : Loop Unit Nat where
  bound := limit
  turn _ := spacesTurn t limit
  ahead := spacesTurn_moves

/-- The index behind the white space at an index, which ends at the limit. -/
def skipSpaces (t : Text) (limit i : Nat) : Scan Nat := (spacesLoop t limit).run () i

/-- The brackets that are open: the innermost and those around it. -/
structure Open where
  top : Bracket
  below : List Bracket

/-- A turn of the search for the bracket that closes the group at `start`, which `b` opens. -/
def groupTurn (t : Text) (b : Bracket) (start : Nat) (o : Open) (i : Nat) : Scan (Turn Open Nat) :=
  if i < t.length then do
    let c ← charAt t i
    if ← opensString t i c then return .next o (← stringEnd t i)
    else if opensBlock t i then return .next o (← commentEnd t i)
    else if ← opensLine t i c then return .next o (lineEnd t i)
    else if c = backtick then return .next o (i + 2)
    else match Bracket.ofOpening? c, Bracket.ofClosing? c with
      | some b', _ => return .next ⟨b', o.top :: o.below⟩ (i + 1)
      | none, some b' =>
        if b' ≠ o.top then .error (.fault (.mismatched b') i)
        else match o.below with
          | [] => return .done (i + 1)
          | b'' :: below => return .next ⟨b'', below⟩ (i + 1)
      | none, none => return .next o (i + 1)
  else .error (.fault (.unclosed b) start)

theorem eq_of_opensLine {t : Text} {i : Nat} {c : CodePoint} (h : opensLine t i c = .ok true) :
    c = '#' := by
  unfold opensLine at h
  split at h
  · assumption
  · cases h

theorem lt_lineEnd_of_opensLine {t : Text} {i : Nat} {c : CodePoint} (hc : charAt t i = .ok c)
    (h : opensLine t i c = .ok true) : i < lineEnd t i :=
  lt_lineEnd hc (by rw [eq_of_opensLine h]; decide)

theorem groupTurn_moves {t : Text} {b : Bracket} {start i : Nat} {o : Open} {turn : Turn Open Nat}
    (h : groupTurn t b start o i = .ok turn) : turn.Moves t.length i id := by
  unfold groupTurn at h
  split at h
  · rename_i hi
    obtain ⟨c, hc, h⟩ := of_bind_eq_ok h
    obtain ⟨string, -, h⟩ := of_bind_eq_ok h
    split at h
    · obtain ⟨e, he, h⟩ := of_bind_eq_ok h
      cases h
      exact ⟨hi, lt_stringEnd he⟩
    · split at h
      · obtain ⟨e, he, h⟩ := of_bind_eq_ok h
        cases h
        exact ⟨hi, lt_commentEnd he⟩
      · obtain ⟨line, hl, h⟩ := of_bind_eq_ok h
        split at h
        · rename_i hline
          cases h
          exact ⟨hi, lt_lineEnd_of_opensLine hc (hline ▸ hl)⟩
        · split at h
          · cases h
            exact ⟨hi, by omega⟩
          · split at h
            · cases h
              exact ⟨hi, by omega⟩
            · split at h
              · cases h
              · split at h <;> cases h
                · exact Nat.le_succ i
                · exact ⟨hi, by omega⟩
            · cases h
              exact ⟨hi, by omega⟩
  · cases h

def groupLoop (t : Text) (b : Bracket) (start : Nat) : Loop Open Nat where
  bound := t.length
  turn := groupTurn t b start
  ahead := groupTurn_moves

/-- The index behind the group that opens at an index. -/
def groupEnd (t : Text) (start : Nat) : Scan Nat := do
  match Bracket.ofOpening? (← charAt t start) with
  | none => .error (.noBracket start)
  | some b => (groupLoop t b start).run ⟨b, []⟩ (start + 1)

theorem lt_groupEnd {t : Text} {i e : Nat} (h : groupEnd t i = .ok e) : i < e := by
  unfold groupEnd at h
  obtain ⟨c, -, h⟩ := of_bind_eq_ok h
  split at h
  · cases h
  · exact Loop.le_of_run groupTurn_moves h

/-- A turn over trivia. -/
def triviaTurn (t : Text) (i : Nat) : Scan (Turn Unit Nat) :=
  if i < t.length then do
    let c ← charAt t i
    if isSpace c then return .next () (i + 1)
    else if opensBlock t i then return .next () (← commentEnd t i)
    else if c = '#' then return .next () (lineEnd t i)
    else if c = backtick ∧ (slice t (i + 1) (i + 2) = "\n" ∨ slice t (i + 1) (i + 2) = "\r") then
      return .next () (i + 2)
    else return .done i
  else return .done i

theorem triviaTurn_moves {t : Text} {i : Nat} {turn : Turn Unit Nat}
    (h : triviaTurn t i = .ok turn) : turn.Moves t.length i id := by
  unfold triviaTurn at h
  split at h
  · rename_i hi
    obtain ⟨c, hc, h⟩ := of_bind_eq_ok h
    split at h
    · cases h
      exact ⟨hi, by omega⟩
    · split at h
      · obtain ⟨e, he, h⟩ := of_bind_eq_ok h
        cases h
        exact ⟨hi, lt_commentEnd he⟩
      · split at h
        · rename_i hline
          cases h
          exact ⟨hi, lt_lineEnd hc (by rw [hline]; decide)⟩
        · split at h <;> cases h
          · exact ⟨hi, by omega⟩
          · exact Nat.le_refl i
  · cases h
    exact Nat.le_refl i

def triviaLoop (t : Text) : Loop Unit Nat where
  bound := t.length
  turn _ := triviaTurn t
  ahead := triviaTurn_moves

/-- The index behind the trivia at an index. -/
def skipTrivia (t : Text) (i : Nat) : Scan Nat := (triviaLoop t).run () i

theorem skipTrivia_le {t : Text} {i e : Nat} (h : skipTrivia t i = .ok e) : i ≤ e :=
  Loop.le_of_run triviaTurn_moves h

end CondParam.Cursor
