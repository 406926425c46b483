import CondParam.Toml.Value

/-!
# Reading TOML

A document is a sequence of lines: a key and its value, the header of a table, the header of a new
item in a list of tables, or nothing; each may end with a comment. `Toml.read` gives the first fault
of a document that has any.

A table is declared once: by its header, or by the dotted keys of another table's section. Values
that are arrays or inline tables are closed: nothing can be added to them later.
-/

set_option autoImplicit false

namespace CondParam.Toml

structure Document where
  entries : Entries := []
  /-- The path of the current section. -/
  header : List Text := []
  /-- Tables that are declared. -/
  declared : List (List Text) := []
  /-- Tables that count as declared from the next header on. -/
  pending : List (List Text) := []
  /-- Values that are closed. -/
  closed : List (List Text) := []

namespace Document

/-- The tables on the way to a dotted key. -/
def keyTables (d : Document) (key : List Text) : List (List Text) :=
  (List.range (key.length - 1)).map fun i => d.header ++ key.take (i + 1)

/-- The document with one more key and value in the current section. -/
def addValue (d : Document) (key : List Text) (value : Data) : Option Document :=
  let tables := d.keyTables key
  let path := d.header ++ key
  if tables.any d.declared.contains || covers d.closed path.dropLast then none
  else (updatePath true (newValue value) path d.entries).map fun entries =>
    { d with entries, pending := d.pending ++ tables,
             closed := if isContainer value then d.closed ++ [path] else d.closed }

/-- The document at the header of a table. -/
def openSection (d : Document) (key : List Text) : Option Document :=
  let declared := d.declared ++ d.pending
  if declared.contains key || covers d.closed key then none
  else (updatePath true openTable key d.entries).map fun entries =>
    { d with entries, header := key, declared := declared ++ [key], pending := [] }

/-- The document at the header of a new item in a list of tables. What was known below the path
belongs to the item before. -/
def openItem (d : Document) (key : List Text) : Option Document :=
  if covers d.closed key then none
  else
    let outside := fun path : List Text => !key.isPrefixOf path
    (updatePath true appendTable key d.entries).map fun entries =>
      { d with entries, header := key, pending := [],
               declared := (d.declared ++ d.pending).filter outside ++ [key],
               closed := d.closed.filter outside }

end Document

/-- Reads a key and its value. -/
def readPair (d : Document) (t : Text) : Except DataFault (Read Document) :=
  match readKey t with
  | none => .error .malformed
  | some key =>
    let rest := t.drop key.length
    if rest.head? ≠ some (.char '=') then .error .malformed
    else
      let b := blanks (rest.drop 1)
      match readValue nestingLimit ((rest.drop 1).drop b) with
      | .error e => .error e
      | .ok value =>
        wellFormed ((d.addValue key.value value.value).map
          (⟨·, key.length + 1 + b + value.length⟩))

/-- Reads a header from the text behind its first bracket. -/
def readHeader (d : Document) (t : Text) : Option (Read Document) :=
  let isItem := t.head? = some (.char '[')
  let brackets : Text := if isItem then "]]" else "]"
  let inner := t.drop (brackets.length - 1)
  let b := blanks inner
  match readKey (inner.drop b) with
  | none => none
  | some key =>
    if brackets.isPrefixOf ((inner.drop b).drop key.length) then
      (if isItem then d.openItem key.value else d.openSection key.value).map
        (⟨·, brackets.length - 1 + b + key.length + brackets.length⟩)
    else none

/-- Reads what a line holds besides blanks and a comment; `c` is its first character. -/
def readStatement (d : Document) (c : CodePoint) (cs : Text) : Except DataFault (Read Document) :=
  if startsKey c then readPair d (c :: cs)
  else if c = '[' then wellFormed ((readHeader d cs).map (.plus 1))
  else if c = '#' ∨ c = '\n' then .ok ⟨d, 0⟩
  else .error .malformed

/-- Reads the lines of a document. -/
def readDocument (d : Document) : Text → Except DataFault Document
  | [] => .ok d
  | c :: cs =>
    let line := (c :: cs).drop (blanks (c :: cs))
    match line.head? with
    | none => .ok d
    | some first =>
      match readStatement d first (line.drop 1) with
      | .error e => .error e
      | .ok statement =>
        let tail := line.drop statement.length
        let tail := tail.drop (blanks tail)
        match commentLength tail with
        | none => .error .malformed
        | some n =>
          match (tail.drop n).head? with
          | none => .ok statement.value
          | some (.char '\n') => readDocument statement.value ((tail.drop n).drop 1)
          | some _ => .error .malformed
termination_by cs => cs.length
decreasing_by simp only [List.length_drop, List.length_cons]; omega

/-- Reads a TOML document. -/
def read (t : Text) : Except DataFault Data := (readDocument {} t).map fun d => .table d.entries

end CondParam.Toml
