import CondParam.Skeleton

/-!
# Generation

From a script with a parameter block to the function that registers its conditional parameters at
run time. Problems with the declarations do not stop it; they are reported beside the source.
-/

set_option autoImplicit false

namespace CondParam

/-- A generated function, with what it was made from. -/
structure Generated where
  functionName : Text
  source : Text
  emission : Emission
  staticNames : List Text
  dynamic : List Conditional
  diagnostics : List Diagnostic
  deriving DecidableEq, Repr

/-- Classifies the declarations of a block. -/
def ParamBlock.classify (s : Settings) (b : ParamBlock) : Classification :=
  CondParam.classify s {} b.parameters

/-- Generates the function for a block. -/
def ParamBlock.generate (s : Settings) (b : ParamBlock) : Generated :=
  let classified := Classifying.addAll s {} b.parameters
  let k := classified.result
  let e := emit s.stream classified.report k
  { functionName := s.functionName
    source := assemble s.functionName e.render b.attributes
    emission := e
    staticNames := k.staticNames
    dynamic := k.dynamic
    diagnostics := e.report.entries }

/-- Classifies a script; none if it has no parameter block. -/
def Script.classify? (s : Settings) (script : Script) : Option Classification :=
  script.block.map (·.classify s)

/-- Generates the function for a script; none if it has no parameter block. -/
def Script.generate? (s : Settings) (script : Script) : Option Generated :=
  script.block.map (·.generate s)

/-- Generates the function for a script, with its sorts on record. -/
def Script.generateOnRecord (s : Settings) (script : Script) (scopes : SortScopes) :
    Option Generated × SortScopes :=
  match script.generate? s with
  | none => (none, scopes)
  | some g => (some g, scopes.recordAll g.emission.sorts)

end CondParam
