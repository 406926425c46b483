import CondParam.Calendar
import CondParam.Decimal

/-!
# Data values

The values that configuration files and payloads are made of. A table keeps its keys in the order in
which they first came, each once.
-/

set_option autoImplicit false

namespace CondParam

inductive Data where
  | null
  | bool (b : Bool)
  | int (n : Int)
  | floating (x : Floating)
  | text (t : Text)
  | moment (m : Moment)
  | list (items : List Data)
  | table (entries : List (Text × Data))
  deriving Inhabited

/-- Why a document cannot be read. -/
inductive DataFault where
  | malformed
  /-- An integer has more than `digitLimit` digits. -/
  | longNumeral
  /-- Values are nested deeper than `nestingLimit` allows. -/
  | tooDeep
  deriving DecidableEq, Repr

/-- What a reader without other faults gives: nothing is malformed. -/
def wellFormed {α : Type} : Option α → Except DataFault α
  | none => .error .malformed
  | some a => .ok a

/-- How many readers may be at work inside each other. -/
def nestingLimit : Nat := 975

namespace Data

/-- The entries with `key` set to `value`: in its place if the key is there, else at the end. -/
def insertEntry (key : Text) (value : Data) : List (Text × Data) → List (Text × Data)
  | [] => [(key, value)]
  | (k, v) :: rest => if k = key then (k, value) :: rest else (k, v) :: insertEntry key value rest

/-- The entry of a table. -/
def get? (d : Data) (key : Text) : Option Data :=
  match d with
  | table entries => entries.lookup key
  | _ => none

def isNull : Data → Bool
  | null => true
  | _ => false

/-- The entries of a table; of anything else none. -/
def entries : Data → List (Text × Data)
  | table es => es
  | _ => []

end Data

end CondParam
