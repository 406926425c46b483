import CondParam.Generation
import CondParam.Payload

/-!
# Responses

The documents that describe a classification or a generated function. A parameter has one view for
both kinds: a static one has its extent and no condition, a conditional one a condition and no
extent.
-/

set_option autoImplicit false

namespace CondParam

/-- A parameter as a response shows it. -/
structure ParameterView where
  name : Text
  isDynamic : Bool
  condition : Option Text := none
  resolvedType : Option Text := none
  default : Option Text := none
  pipelineAware : Bool := false
  hasParameterAttribute : Bool := false
  extent : Option Text := none
  deriving DecidableEq, Repr

def Conditional.view (c : Conditional) : ParameterView where
  name := c.name
  isDynamic := true
  condition := some c.condition
  resolvedType := some c.resolvedType
  default := c.default
  pipelineAware := c.pipelineAware
  hasParameterAttribute := c.hasParameterAttribute

/-- The last declaration of a name in a script. -/
def Script.lastDeclaration? (s : Script) (name : Text) : Option Parameter :=
  s.block.bind fun b => b.parameters.reverse.find? (·.name = name)

/-- A static declaration; type and default are looked up by its name. -/
def Script.staticView (s : Script) (name extent : Text) : ParameterView where
  name := name
  isDynamic := false
  resolvedType := (s.lastDeclaration? name).bind (·.typeName)
  default := (s.lastDeclaration? name).bind (·.default)
  extent := some extent

structure ClassificationResponse where
  static : List ParameterView := []
  dynamic : List ParameterView := []
  warnings : List Diagnostic := []
  deriving DecidableEq, Repr

/-- The response to a classification of a script. -/
def Classification.response (script : Script) (k : Classification) : ClassificationResponse where
  static := (k.staticNames.zip k.static).map fun (name, extent) => script.staticView name extent
  dynamic := k.dynamic.map (·.view)
  warnings := k.diagnostics

structure GenerationResponse where
  functionName : Text
  source : Text
  static : List Text := []
  dynamic : List ParameterView := []
  warnings : List Diagnostic := []
  syntaxErrors : List Text := []
  deriving DecidableEq, Repr

/-- The response to a generation, with what the host found wrong with the source. -/
def Generated.response (g : Generated) (syntaxErrors : List Text) : GenerationResponse where
  functionName := g.functionName
  source := g.source
  static := g.staticNames
  dynamic := g.dynamic.map (·.view)
  warnings := g.diagnostics
  syntaxErrors := syntaxErrors

/-! ## Data of a response -/

def Diagnostic.toData (d : Diagnostic) : Data :=
  .table [("code", .text d.code.name), ("parameter", .text d.parameter),
    ("message", .text d.message)]

def ParameterView.toData (v : ParameterView) : Data :=
  .table [("name", .text v.name), ("kind", .text (if v.isDynamic then "dynamic" else "static")),
    ("condition", .ofOption v.condition), ("resolved_type", .ofOption v.resolvedType),
    ("default", .ofOption v.default), ("pipeline_aware", .bool v.pipelineAware),
    ("has_parameter_attribute", .bool v.hasParameterAttribute), ("extent", .ofOption v.extent)]

def ClassificationResponse.toData (r : ClassificationResponse) : Data :=
  .table [("static", .list (r.static.map (·.toData))),
    ("dynamic", .list (r.dynamic.map (·.toData))),
    ("warnings", .list (r.warnings.map (·.toData)))]

def GenerationResponse.toData (r : GenerationResponse) : Data :=
  .table [("function_name", .text r.functionName), ("source", .text r.source),
    ("static_parameters", .list (r.static.map .text)),
    ("dynamic_parameters", .list (r.dynamic.map (·.toData))),
    ("warnings", .list (r.warnings.map (·.toData))),
    ("syntax_errors", .list (r.syntaxErrors.map .text))]

end CondParam
