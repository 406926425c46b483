import CondParam.Data
import CondParam.Script

/-!
# Payloads

A script can also come as data, from another parser. `Script.ofData` checks that the data has the
shape of a script and collects every problem, each with the path to it: fields in the order in which
the types declare them, items in order. `Script.toData` is the data of a script.
-/

set_option autoImplicit false

namespace CondParam

/-- A step from a value into it: an entry of a table or an item of a list. -/
inductive PathStep where
  | key (k : Text)
  | index (n : Nat)
  deriving DecidableEq, Repr

/-- The parts of a payload that are tables. -/
inductive Shape where
  | scriptTable
  | blockTable
  | parameterTable
  | annotationTable
  | argumentTable
  deriving DecidableEq, Repr

def Shape.label : Shape → Text
  | scriptTable => "ScriptDTO"
  | blockTable => "ParamBlockDTO"
  | parameterTable => "ParameterDTO"
  | annotationTable => "AnnotationDTO"
  | argumentTable => "NamedArgumentDTO"

inductive ProblemKind where
  | missing
  | notText
  | notList
  | notKind
  | notTable (shape : Shape)
  deriving DecidableEq, Repr

namespace ProblemKind

def code : ProblemKind → Text
  | missing => "missing"
  | notText => "string_type"
  | notList => "list_type"
  | notKind => "literal_error"
  | notTable _ => "model_type"

def message : ProblemKind → Text
  | missing => "Field required"
  | notText => "Input should be a valid string"
  | notList => "Input should be a valid list"
  | notKind => "Input should be 'attribute' or 'type_constraint'"
  | notTable shape =>
    .concat ["Input should be a valid dictionary or instance of ", shape.label]

end ProblemKind

structure Problem where
  path : List PathStep
  kind : ProblemKind
  deriving DecidableEq, Repr

/-- A value, or all the problems with it. -/
inductive Checked (α : Type) where
  | ok (a : α)
  | bad (problems : List Problem)
  deriving DecidableEq, Repr

namespace Checked

section
variable {α β : Type}

protected def map (f : α → β) : Checked α → Checked β
  | ok a => ok (f a)
  | bad ps => bad ps

/-- Both parts are looked at, and their problems are put together. -/
protected def seq : Checked (α → β) → Checked α → Checked β
  | ok f, ok a => ok (f a)
  | ok _, bad ps => bad ps
  | bad ps, ok _ => bad ps
  | bad ps, bad qs => bad (ps ++ qs)

/-- The problems seen from one step further out. -/
def under (step : PathStep) : Checked α → Checked α
  | ok a => ok a
  | bad ps => bad (ps.map fun p => { p with path := step :: p.path })

/-- A single problem with the value at hand. -/
def problem (kind : ProblemKind) : Checked α := bad [⟨[], kind⟩]

end

instance : Applicative Checked where
  pure := ok
  map := Checked.map
  seq f x := Checked.seq f (x ())

section
variable {α : Type}

/-- Checks the items of a list, the first of which has index `n`. -/
def items (check : Data → Checked α) (n : Nat) : List Data → Checked (List α)
  | [] => ok []
  | d :: ds => List.cons <$> (check d).under (.index n) <*> items check (n + 1) ds

/-- A list of values. -/
def list (check : Data → Checked α) : Data → Checked (List α)
  | .list ds => items check 0 ds
  | _ => problem .notList

/-- A text. -/
def text : Data → Checked Text
  | .text t => ok t
  | _ => problem .notText

/-- Null, or a value. -/
def nullable (check : Data → Checked α) : Data → Checked (Option α)
  | .null => ok none
  | d => some <$> check d

/-- An entry that has to be there. -/
def required (check : Data → Checked α) (entries : List (Text × Data)) (key : Text) : Checked α :=
  match entries.lookup key with
  | none => (problem .missing).under (.key key)
  | some d => (check d).under (.key key)

/-- An entry that may be left out. -/
def optional (check : Data → Checked α) (default : α) (entries : List (Text × Data)) (key : Text) :
    Checked α :=
  match entries.lookup key with
  | none => ok default
  | some d => (check d).under (.key key)

/-- A table of a shape. -/
def table (shape : Shape) (check : List (Text × Data) → Checked α) : Data → Checked α
  | .table entries => check entries
  | _ => problem (.notTable shape)

end

end Checked

open Checked

def AnnotationKind.name : AnnotationKind → Text
  | attr => "attribute"
  | typeConstraint => "type_constraint"

def AnnotationKind.ofData : Data → Checked AnnotationKind
  | .text t =>
    if t = attr.name then ok attr
    else if t = typeConstraint.name then ok typeConstraint
    else problem .notKind
  | _ => problem .notKind

def NamedArgument.ofData : Data → Checked NamedArgument :=
  table .argumentTable fun es =>
    NamedArgument.mk <$> required text es "name" <*> optional (nullable text) none es "expression"

def Annotation.ofData : Data → Checked Annotation :=
  table .annotationTable fun es =>
    Annotation.mk <$> required text es "tag"
      <*> optional AnnotationKind.ofData .attr es "kind"
      <*> optional (list text) [] es "positional"
      <*> optional (list NamedArgument.ofData) [] es "named"
      <*> optional text [] es "extent"

def Parameter.ofData : Data → Checked Parameter :=
  table .parameterTable fun es =>
    Parameter.mk <$> required text es "name"
      <*> optional (list Annotation.ofData) [] es "annotations"
      <*> optional (nullable text) none es "default"
      <*> required text es "extent"

def ParamBlock.ofData : Data → Checked ParamBlock :=
  table .blockTable fun es =>
    ParamBlock.mk <$> optional (list Parameter.ofData) [] es "parameters"
      <*> optional (list text) [] es "attributes"

/-- The script that a payload describes. -/
def Script.ofData : Data → Checked Script :=
  table .scriptTable fun es =>
    Script.mk <$> optional (nullable ParamBlock.ofData) none es "param_block"

/-! ## Data of a script -/

/-- A text, or null. -/
def Data.ofOption : Option Text → Data
  | none => .null
  | some t => .text t

def NamedArgument.toData (a : NamedArgument) : Data :=
  .table [("name", .text a.name), ("expression", .ofOption a.value)]

def Annotation.toData (a : Annotation) : Data :=
  .table [("tag", .text a.tag), ("kind", .text a.kind.name),
    ("positional", .list (a.positional.map .text)), ("named", .list (a.named.map (·.toData))),
    ("extent", .text a.extent)]

def Parameter.toData (p : Parameter) : Data :=
  .table [("name", .text p.name), ("annotations", .list (p.annotations.map (·.toData))),
    ("default", .ofOption p.default), ("extent", .text p.extent)]

def ParamBlock.toData (b : ParamBlock) : Data :=
  .table [("parameters", .list (b.parameters.map (·.toData))),
    ("attributes", .list (b.attributes.map .text))]

def Script.toData (s : Script) : Data :=
  .table [("param_block", match s.block with
    | none => .null
    | some b => b.toData)]

end CondParam
