import CondParam.Text

/-!
# Sorting on record

Every sort is stable and reports itself: where it was asked for, how many items it had, and whether
it changed anything. Reports go to the innermost open scope; without one they are lost.
-/

set_option autoImplicit false

namespace CondParam

structure SortEvent where
  source : Text
  count : Nat
  alreadySorted : Bool
  deriving DecidableEq, Repr

section
variable {α κ : Type} (le : κ → κ → Bool)

/-- The items by increasing key, or by decreasing key; items with equal keys keep their order in
both directions. -/
def sortBy (key : α → κ) (reverse : Bool) (items : List α) : List α :=
  items.mergeSort fun a b => if reverse then le (key b) (key a) else le (key a) (key b)

/-- What a sort reports. -/
def sortEvent [DecidableEq α] (source : Text) (key : α → κ) (reverse : Bool) (items : List α) :
    SortEvent :=
  ⟨source, items.length, sortBy le key reverse items = items⟩

end

/-- The open scopes, the innermost first, each with the events it has seen. -/
structure SortScopes where
  events : List (List SortEvent) := []
  deriving DecidableEq, Repr

namespace SortScopes

def depth (s : SortScopes) : Nat := s.events.length

/-- Opens a scope. -/
def enter (s : SortScopes) : SortScopes := ⟨[] :: s.events⟩

/-- Closes the innermost scope and gives back what it has seen. -/
def leave? (s : SortScopes) : Option (List SortEvent × SortScopes) :=
  match s.events with
  | [] => none
  | inner :: outer => some (inner, ⟨outer⟩)

/-- Records an event in the innermost scope. -/
def record (e : SortEvent) (s : SortScopes) : SortScopes :=
  match s.events with
  | [] => s
  | inner :: outer => ⟨(inner ++ [e]) :: outer⟩

/-- Records events in order. -/
def recordAll (es : List SortEvent) (s : SortScopes) : SortScopes :=
  es.foldl (fun s e => s.record e) s

end SortScopes

/-- A sort that is asked for: of which items, in which order, and where. -/
structure SortCall where
  Item : Type
  Key : Type
  [itemEq : DecidableEq Item]
  le : Key → Key → Bool
  source : Text
  key : Item → Key
  reverse : Bool
  items : List Item

namespace SortCall

def result (c : SortCall) : List c.Item := sortBy c.le c.key c.reverse c.items

def event (c : SortCall) : SortEvent :=
  have := c.itemEq
  sortEvent c.le c.source c.key c.reverse c.items

/-- Sorts, and records the sort in the innermost scope. -/
def perform (c : SortCall) (s : SortScopes) : List c.Item × SortScopes :=
  (c.result, s.record c.event)

end SortCall

/-- What may happen to the scopes. -/
inductive SortStep where
  | enter
  | leave
  | sort (c : SortCall)

namespace SortScopes

/-- The scopes after a step; none if it closes a scope where none is open. -/
def next? (s : SortScopes) : SortStep → Option SortScopes
  | .enter => some s.enter
  | .leave => s.leave?.map (·.2)
  | .sort c => some (c.perform s).2

/-- The scopes after steps in order. -/
def run? (s : SortScopes) (steps : List SortStep) : Option SortScopes := steps.foldlM next? s

end SortScopes

end CondParam
