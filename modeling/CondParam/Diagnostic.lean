import CondParam.Text.Lower

/-!
# Diagnostics

Warnings about declarations, and the report that collects them: it keeps at most one of each code
for a parameter name, the first. Which ones there have been is noted apart from the diagnostics
themselves.
-/

set_option autoImplicit false

namespace CondParam

inductive DiagnosticCode where
  | untypedParameter
  | reservedName
  | duplicateMarker
  | emptyMarker
  | ambiguousCondition
  deriving DecidableEq, Repr

namespace DiagnosticCode

def name : DiagnosticCode → Text
  | untypedParameter => "UNTYPED_PARAMETER"
  | reservedName => "RESERVED_NAME"
  | duplicateMarker => "DUPLICATE_MARKER"
  | emptyMarker => "EMPTY_MARKER"
  | ambiguousCondition => "AMBIGUOUS_CONDITION"

def all : List DiagnosticCode :=
  [untypedParameter, reservedName, duplicateMarker, emptyMarker, ambiguousCondition]

/-- The code with a given name. -/
def ofName? (t : Text) : Option DiagnosticCode := all.find? (·.name = t)

@[simp] theorem ofName?_name (c : DiagnosticCode) : ofName? c.name = some c := by
  cases c <;> decide

end DiagnosticCode

structure Diagnostic where
  code : DiagnosticCode
  parameter : Text
  message : Text
  deriving DecidableEq, Repr

namespace Diagnostic

/-- What the report tells diagnostics apart by. -/
def key (d : Diagnostic) : DiagnosticCode × Text := (d.code, d.parameter)

def render (d : Diagnostic) : Text :=
  .concat ["warning[", d.code.name, "] $", d.parameter, ": ", d.message]

/-- A conditional parameter without a type constraint. -/
def untyped (name : Text) : Diagnostic :=
  ⟨.untypedParameter, name, "no type constraint; registered as [Object]"⟩

/-- A parameter with more than one marker. -/
def duplicateMarker (name marker : Text) (count : Nat) : Diagnostic :=
  ⟨.duplicateMarker, name,
    .concat [.ofNat count, " [", marker, "] markers; only the first is honoured"]⟩

/-- A marker without an argument. -/
def emptyMarker (name : Text) : Diagnostic :=
  ⟨.emptyMarker, name, "marker has no condition; the parameter is always registered"⟩

/-- A condition of nothing but white space. -/
def ambiguousCondition (name : Text) : Diagnostic :=
  ⟨.ambiguousCondition, name, "condition is blank but not empty; carried through literally"⟩

/-- A parameter whose name is, or abbreviates, a reserved one. -/
def reserved (name taken : Text) : Diagnostic where
  code := .reservedName
  parameter := name
  message :=
    if taken.lower = name.lower then .concat ["shadows the common parameter -", taken]
    else .concat ["is an ambiguous abbreviation of the common parameter -", taken]

end Diagnostic

/-- The first reserved name that starts with `name`, in any case: PowerShell takes any abbreviation
of a parameter's name for the parameter. -/
def reservedCollision (name : Text) (reserved : List Text) : Option Text :=
  if name.lower.isEmpty then none
  else reserved.find? fun r => name.lower.isPrefixOf r.lower

/-- The diagnostics in order, and the codes and parameters that have been seen. -/
structure Report where
  entries : List Diagnostic := []
  seen : List (DiagnosticCode × Text) := []
  deriving DecidableEq, Repr

namespace Report

/-- Whether a diagnostic of this code for this parameter has been seen. -/
def has (r : Report) (code : DiagnosticCode) (parameter : Text) : Bool :=
  r.seen.any (· = (code, parameter))

/-- Adds a diagnostic unless one of its code for its parameter has been seen. -/
def warn (r : Report) (d : Diagnostic) : Report :=
  if r.has d.code d.parameter then r else ⟨r.entries ++ [d], d.key :: r.seen⟩

/-- Adds diagnostics in order. -/
def extend (r : Report) (ds : List Diagnostic) : Report := ds.foldl warn r

/-- The codes reported for a parameter. -/
def codesFor (r : Report) (parameter : Text) : List DiagnosticCode :=
  (r.entries.filter (·.parameter = parameter)).map (·.code)

/-- The ways to add to a report. -/
inductive Step where
  | warn (d : Diagnostic)
  | extend (ds : List Diagnostic)
  | untyped (name : Text)
  | reserved (name taken : Text)
  deriving DecidableEq, Repr

/-- The answer to a step, and the report after it: `warn` tells whether the diagnostic was added. -/
def step (r : Report) : Step → Option Bool × Report
  | .warn d => (some (!r.has d.code d.parameter), r.warn d)
  | .extend ds => (none, r.extend ds)
  | .untyped name => (none, r.warn (.untyped name))
  | .reserved name taken => (none, r.warn (.reserved name taken))

/-- The report after steps in order. -/
def run (r : Report) (steps : List Step) : Report := steps.foldl (fun r s => (r.step s).2) r

end Report

end CondParam
