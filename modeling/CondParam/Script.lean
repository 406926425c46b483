import CondParam.Text

/-!
# Scripts

What is known of a script: its parameter block, with the declarations and the attributes of the
block. Expressions (arguments, defaults) are kept as they are written, and each declaration and
annotation keeps its whole source text, its extent.
-/

set_option autoImplicit false

namespace CondParam

/-- `[Tag(...)]` is an attribute, `[Tag]` constrains the type. -/
inductive AnnotationKind where
  | attr
  | typeConstraint
  deriving DecidableEq, Repr

/-- `Name = value` in an attribute; without a value it stands for `$true`. -/
structure NamedArgument where
  name : Text
  value : Option Text := none
  deriving DecidableEq, Repr

structure Annotation where
  tag : Text
  kind : AnnotationKind := .attr
  positional : List Text := []
  named : List NamedArgument := []
  extent : Text := []
  deriving DecidableEq, Repr

structure Parameter where
  name : Text
  annotations : List Annotation := []
  default : Option Text := none
  extent : Text := []
  deriving DecidableEq, Repr

structure ParamBlock where
  parameters : List Parameter := []
  attributes : List Text := []
  deriving DecidableEq, Repr

structure Script where
  block : Option ParamBlock := none
  deriving DecidableEq, Repr

/-- The tag of the first type constraint. -/
def Parameter.typeName (p : Parameter) : Option Text :=
  (p.annotations.find? (·.kind = .typeConstraint)).map (·.tag)

end CondParam
