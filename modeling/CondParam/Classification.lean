import CondParam.Diagnostic
import CondParam.Script
import CondParam.Settings

/-!
# Classification

A declaration with a marker annotation is conditional: it is registered at run time when its
condition holds. All others stay in the parameter block as they are written. The declarations are
gone through in order, and one report is handed on from each to the next.
-/

set_option autoImplicit false

namespace CondParam

/-- What an annotation is for. -/
inductive Role where
  | marker
  | typeConstraint
  | generic
  deriving DecidableEq, Repr

/-- The role of an annotation: its tag is compared with the marker in any case, with or without
`Attribute` at its end. -/
def Annotation.role (marker : Text) (a : Annotation) : Role :=
  let tag := a.tag.lower
  if tag = marker.lower ∨ tag = marker.lower ++ "attribute" then .marker
  else match a.kind with
    | .typeConstraint => .typeConstraint
    | .attr => .generic

/-- The tags of PowerShell's own parameter attribute, in lower case. -/
def parameterTags : List Text :=
  ["parameter", "parameterattribute", "system.management.automation.parameter",
   "system.management.automation.parameterattribute"]

def Annotation.isParameterAttribute (a : Annotation) : Bool := parameterTags.contains a.tag.lower

/-- An argument that binds the parameter from the pipeline: one of the two flags, not set to
false. -/
def NamedArgument.isPipelineFlag (a : NamedArgument) : Bool :=
  let flags : List Text := ["valuefrompipeline", "valuefrompipelinebypropertyname"]
  let falseValues : List Text := ["$false", "0"]
  flags.contains a.name.lower && match a.value with
    | none => true
    | some value => !falseValues.contains value.strip.lower

/-- The condition in a marker's argument: what stands between the braces of a script block, with
its white space; other text as it is. -/
def stripCondition (raw : Text) : Text :=
  let t := raw.strip
  if 2 ≤ t.length ∧ t.head? = some (.char '{') ∧ t.getLast? = some (.char '}') then
    (t.drop 1).dropLast
  else raw

/-- A conditional parameter. With an empty condition it is always registered. -/
structure Conditional where
  name : Text
  condition : Text
  resolvedType : Text
  annotations : List Annotation := []
  default : Option Text := none
  pipelineAware : Bool := false
  hasParameterAttribute : Bool := false
  untyped : Bool := false
  deriving DecidableEq, Repr

def Conditional.alwaysPresent (c : Conditional) : Bool := c.condition.isEmpty

/-- Adds an annotation to the tags of type constraints and the generic annotations so far. -/
def addByRole (marker : Text) (sorted : List Text × List Annotation) (a : Annotation) :
    List Text × List Annotation :=
  match a.role marker with
  | .marker => sorted
  | .typeConstraint => (sorted.1 ++ [a.tag], sorted.2)
  | .generic => (sorted.1, sorted.2 ++ [a])

namespace Parameter

/-- The annotations of a role, in order. -/
def withRole (marker : Text) (role : Role) (p : Parameter) : List Annotation :=
  p.annotations.filter (·.role marker = role)

/-- The tags of the type constraints, and the generic annotations, each in order. -/
def constraintsAndGeneric (marker : Text) (p : Parameter) : List Text × List Annotation :=
  p.annotations.foldl (addByRole marker) ([], [])

end Parameter

/-- The condition that a marker of the parameter `name` gives, and the report with what there is to
say about it. -/
def Annotation.condition (name : Text) (report : Report) (m : Annotation) : Text × Report :=
  match m.positional.head? with
  | none => ([], report.warn (.emptyMarker name))
  | some raw =>
    let c := stripCondition raw
    (c, if !c.isEmpty && c.isBlank then report.warn (.ambiguousCondition name) else report)

/-- The conditional parameter that a declaration with markers stands for, and the report with what
there is to say about it. The condition is that of the first marker. -/
def Parameter.conditional (s : Settings) (report : Report) (p : Parameter) (first : Annotation)
    (others : List Annotation) : Conditional × Report :=
  let count := others.length + 1
  let report :=
    if 1 < count then report.warn (.duplicateMarker p.name s.marker count) else report
  let (condition, report) := first.condition p.name report
  let (constraints, generic) := p.constraintsAndGeneric s.marker
  let untyped := constraints.isEmpty
  let report := if untyped then report.warn (.untyped p.name) else report
  ({ name := p.name
     condition
     resolvedType := constraints.headD "Object"
     annotations := generic
     default := p.default
     pipelineAware := generic.any fun a => a.named.any (·.isPipelineFlag)
     hasParameterAttribute := generic.any (·.isParameterAttribute)
     untyped }, report)

/-- The declarations of a block, the conditional ones apart from the static ones, each in order. -/
structure Classification where
  static : List Text := []
  staticNames : List Text := []
  dynamic : List Conditional := []
  diagnostics : List Diagnostic := []
  deriving DecidableEq, Repr

/-- The lists of the declarations so far, and the report. -/
structure Classifying where
  static : List Text := []
  staticNames : List Text := []
  dynamic : List Conditional := []
  report : Report := {}
  deriving DecidableEq, Repr

/-- The report with a warning if a name is reserved. -/
def Report.warnReserved (r : Report) (name : Text) (reserved : List Text) : Report :=
  match reservedCollision name reserved with
  | none => r
  | some taken => r.warn (.reserved name taken)

namespace Classifying

/-- Classifies one more declaration. -/
def add (s : Settings) (k : Classifying) (p : Parameter) : Classifying :=
  let report := k.report.warnReserved p.name s.reserved
  match p.withRole s.marker .marker with
  | [] => { k with static := k.static ++ [p.extent], staticNames := k.staticNames ++ [p.name],
                   report }
  | first :: others =>
    let (c, report) := p.conditional s report first others
    { k with dynamic := k.dynamic ++ [c], report }

/-- Classifies declarations in order. -/
def addAll (s : Settings) (k : Classifying) (ps : List Parameter) : Classifying :=
  ps.foldl (add s) k

def result (k : Classifying) : Classification where
  static := k.static
  staticNames := k.staticNames
  dynamic := k.dynamic
  diagnostics := k.report.entries

end Classifying

/-- Classifies declarations; the diagnostics go on from a report. -/
def classify (s : Settings) (report : Report) (ps : List Parameter) : Classification :=
  (Classifying.addAll s { report } ps).result

end CondParam
