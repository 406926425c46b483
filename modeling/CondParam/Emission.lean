import CondParam.Emission.Fragment
import CondParam.Sorting

/-!
# Emission

The regions of the generated function are buffers of fragments. A step adds the fragments of one
parameter, or of all names so far, to the buffers. `emit` runs the steps for a classification: every
conditional parameter in order, then the refreshes of those bound from the pipeline, then the dump
of all names.
-/

set_option autoImplicit false

namespace CondParam

/-- The places of the generated function that depend on the declarations. -/
inductive Region where
  | static
  | registration
  | initialization
  | pipeline
  | diagnostics
  deriving DecidableEq, Repr

namespace Region

def all : List Region := [static, registration, initialization, pipeline, diagnostics]

def name : Region → Text
  | static => "static"
  | registration => "registration"
  | initialization => "initialization"
  | pipeline => "pipeline"
  | diagnostics => "diagnostics"

end Region

structure Emission where
  static : List Text := []
  registration : List Text := []
  initialization : List Text := []
  pipeline : List Text := []
  diagnostics : List Text := []
  /-- The default of each name, in the order in which the names first came. -/
  defaults : List (Text × Option Text) := []
  dynamicNames : List Text := []
  pipelineNames : List Text := []
  report : Report := {}
  /-- What the sorts so far have reported. -/
  sorts : List SortEvent := []
  deriving DecidableEq, Repr

/-- The entries with the value of a key replaced, or the key added at the end. -/
def setDefault (name : Text) (value : Option Text) :
    List (Text × Option Text) → List (Text × Option Text)
  | [] => [(name, value)]
  | (k, v) :: rest => if k = name then (k, value) :: rest else (k, v) :: setDefault name value rest

/-- The rows of the dump: keys padded to the longest. -/
def dumpRows (names : List Text) : List Text :=
  let width := (names.map fun n => (hashtableKey n).length).foldl max 0
  names.map fun n =>
    .concat [bodyIndent, indentStep, (hashtableKey n).padRight width, " = ", variableRef n]

/-- The lines that write all names, which come sorted, with their values to a stream. -/
def dumpLines (stream : Stream) (names : List Text) : List Text :=
  [.concat [bodyIndent, "Write-", stream.name, " -Message ([pscustomobject]@\x7b"]] ++
    dumpRows names ++ [.concat [bodyIndent, "\x7d | Format-List | Out-String)"]]

/-- How the sort of the dump is called in its report. -/
def dumpSource : Text := "emit_diagnostics.dynamic_names"

namespace Emission

/-- The fragments of a region. -/
def buffer (e : Emission) : Region → List Text
  | .static => e.static
  | .registration => e.registration
  | .initialization => e.initialization
  | .pipeline => e.pipeline
  | .diagnostics => e.diagnostics

/-- The text of a region. -/
def render (e : Emission) : Region → Text
  | .static => .join ",\n        " e.static
  | r => .join "\n" (e.buffer r)

/-- Notes a name as bound from the pipeline, once, and answers whether it is new. -/
def registerPipeline (name : Text) (e : Emission) : Bool × Emission :=
  if e.pipelineNames.contains name then (false, e)
  else (true, { e with pipelineNames := e.pipelineNames ++ [name] })

/-- Adds a static declaration. -/
def addStatic (t : Text) (e : Emission) : Emission := { e with static := e.static ++ [t] }

/-- Adds a name to the dump. -/
def addDynamicName (name : Text) (e : Emission) : Emission :=
  { e with dynamicNames := e.dynamicNames ++ [name] }

/-- Adds the registration of a parameter. -/
def addRegistration (c : Conditional) (e : Emission) : Emission :=
  let e := { e with registration := e.registration ++ c.registrationLines }
  let e := if c.pipelineAware then (e.registerPipeline c.name).2 else e
  if c.untyped then { e with report := e.report.warn (.untyped c.name) } else e

/-- Notes the default of a parameter, and adds the initialization with the default that is noted. -/
def addInitialization (c : Conditional) (e : Emission) : Emission :=
  let defaults := setDefault c.name c.default e.defaults
  let line := c.assignmentLine (defaults.lookup c.name).join
  { e with defaults, initialization := e.initialization ++ [line] }

/-- Adds the refresh of a parameter. -/
def addRefresh (c : Conditional) (e : Emission) : Emission :=
  { e with pipeline := e.pipeline ++ [c.refreshLine] }

/-- Adds the dump of all names so far, sorted by code points; without names there is none. -/
def addDump (stream : Stream) (e : Emission) : Emission :=
  if e.dynamicNames.isEmpty then e
  else
    let sorted := sortBy Text.le id false e.dynamicNames
    { e with diagnostics := e.diagnostics ++ dumpLines stream sorted,
             sorts := e.sorts ++ [sortEvent Text.le dumpSource id false e.dynamicNames] }

/-- The steps of emission. -/
inductive Step where
  | registerPipeline (name : Text)
  | static (t : Text)
  | dynamicName (name : Text)
  | registration (c : Conditional)
  | initialization (c : Conditional)
  | refresh (c : Conditional)
  | dump (stream : Stream)
  deriving DecidableEq, Repr

/-- The emission after a step. -/
def apply (e : Emission) : Step → Emission
  | .registerPipeline name => (e.registerPipeline name).2
  | .static t => e.addStatic t
  | .dynamicName name => e.addDynamicName name
  | .registration c => e.addRegistration c
  | .initialization c => e.addInitialization c
  | .refresh c => e.addRefresh c
  | .dump stream => e.addDump stream

/-- The emission after steps in order. -/
def run (e : Emission) (steps : List Step) : Emission := steps.foldl apply e

end Emission

/-- The steps for one conditional parameter. -/
def Conditional.steps (c : Conditional) : List Emission.Step :=
  [.dynamicName c.name, .registration c, .initialization c]

/-- The regions of the function for a classification; warnings go to the report. -/
def emit (stream : Stream) (report : Report) (k : Classification) : Emission :=
  let declared := Emission.run { report } (k.static.map .static ++ k.dynamic.flatMap (·.steps))
  let refreshed := k.dynamic.filter fun c => declared.pipelineNames.contains c.name
  declared.run (refreshed.map .refresh ++ [.dump stream])

end CondParam
