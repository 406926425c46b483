import CondParam.Generation
import CondParam.Payload
import CondParam.Proofs.Group
import CondParam.Script.Read
import Mathlib.Logic.Relation

/-!
# Payloads carry every script

The data of a script is read back as the script (`Script.ofData_toData`). A payload may be spelled
in other ways too (`Respelled`): in each of its tables the entries may stand in any order, entries
that the shape does not know may be added, and entries that hold their defaults may be left out.
None of this changes what is read, not even of a payload with problems (`Respelled.ofData_eq`), so
every spelling of a script's data gives the script and the function that is generated from it
(`Script.ofData_respelled`).
-/

set_option autoImplicit false

namespace CondParam

/-! ## Entries of a table -/

section
variable {key k : Text} {v : Data} {es fs : List (Text × Data)}

theorem lookup_cons_of_ne (h : k ≠ key) : ((k, v) :: fs).lookup key = fs.lookup key := by
  rw [List.lookup_cons, beq_eq_false_iff_ne.2 h.symm]

/-- Another entry is found as before when an entry is added. -/
theorem lookup_insert_of_ne (h : k ≠ key) :
    (es ++ (k, v) :: fs).lookup key = (es ++ fs).lookup key := by
  rw [List.lookup_append, List.lookup_append, lookup_cons_of_ne h]

theorem lookup_insert_self : (es ++ (k, v) :: fs).lookup k = (es.lookup k).or (some v) := by
  rw [List.lookup_append, List.lookup_cons_self]

end

namespace Checked

section
variable {α β : Type}

@[simp] theorem map_ok (f : α → β) (a : α) : f <$> ok a = ok (f a) := rfl

@[simp] theorem seq_ok (f : α → β) (a : α) : ok f <*> ok a = ok (f a) := rfl

@[simp] theorem under_ok (step : PathStep) (a : α) : (ok a).under step = ok a := rfl

variable {check : Data → Checked α} {f : α → Data}

theorem items_map (h : ∀ a, check (f a) = ok a) (n : Nat) (as : List α) :
    items check n (as.map f) = ok as := by
  induction as generalizing n with
  | nil => rfl
  | cons a as ih => rw [List.map_cons, items, h, ih]; rfl

theorem list_map (h : ∀ a, check (f a) = ok a) (as : List α) :
    list check (.list (as.map f)) = ok as :=
  items_map h 0 as

theorem list_text (ts : List Text) : list text (.list (ts.map .text)) = ok ts :=
  list_map (f := .text) (fun _ => rfl) ts

theorem nullable_ofOption (t : Option Text) : nullable text (.ofOption t) = ok t := by
  cases t <;> rfl

/-- Items that are read alike can stand for each other. -/
theorem items_congr {d d' : Data} (h : check d' = check d) (n : Nat) (ds ds' : List Data) :
    items check n (ds ++ d' :: ds') = items check n (ds ++ d :: ds') := by
  induction ds generalizing n with
  | nil => rw [List.nil_append, List.nil_append, items, items, h]
  | cons e ds ih => rw [List.cons_append, List.cons_append, items, items, ih]

end

end Checked

open Checked

/-! ## Reading the data back -/

theorem AnnotationKind.ofData_name (k : AnnotationKind) : ofData (.text k.name) = ok k := by
  cases k <;> decide

theorem NamedArgument.ofData_toData (a : NamedArgument) : ofData a.toData = ok a := by
  simp (disch := decide) only [NamedArgument.ofData, NamedArgument.toData, table, required,
    Checked.optional, List.lookup_cons_self, lookup_cons_of_ne, text, nullable_ofOption, under_ok,
    map_ok, seq_ok]

theorem Annotation.ofData_toData (a : Annotation) : ofData a.toData = ok a := by
  simp (disch := decide) only [ofData, Annotation.toData, table, required,
    Checked.optional, List.lookup_cons_self, lookup_cons_of_ne, text, AnnotationKind.ofData_name,
    list_text, list_map NamedArgument.ofData_toData, under_ok, map_ok, seq_ok]

theorem Parameter.ofData_toData (p : Parameter) : ofData p.toData = ok p := by
  simp (disch := decide) only [Parameter.ofData, Parameter.toData, table, required,
    Checked.optional, List.lookup_cons_self, lookup_cons_of_ne, text, nullable_ofOption,
    list_map Annotation.ofData_toData, under_ok, map_ok, seq_ok]

theorem ParamBlock.ofData_toData (b : ParamBlock) : ofData b.toData = ok b := by
  simp (disch := decide) only [ParamBlock.ofData, ParamBlock.toData, table, Checked.optional,
    List.lookup_cons_self, lookup_cons_of_ne, list_text, list_map Parameter.ofData_toData,
    under_ok, map_ok, seq_ok]

/-- **The data of a script is read back.** -/
theorem Script.ofData_toData (s : Script) : ofData s.toData = ok s := by
  obtain ⟨block⟩ := s
  cases block with
  | none => rfl
  | some b =>
    have hb : nullable ParamBlock.ofData b.toData = ok (some b) := by
      show some <$> ParamBlock.ofData b.toData = _
      rw [b.ofData_toData]
      rfl
    simp only [Script.ofData, Script.toData, table, Checked.optional, List.lookup_cons_self, hb,
      under_ok, map_ok]

/-! ## Other spellings -/

namespace Shape

/-- The entries that a table of a shape is asked for. -/
def fields : Shape → List Text
  | scriptTable => ["param_block"]
  | blockTable => ["parameters", "attributes"]
  | parameterTable => ["name", "annotations", "default", "extent"]
  | annotationTable => ["tag", "kind", "positional", "named", "extent"]
  | argumentTable => ["name", "expression"]

/-- The entries that may be left out, with the values that they then stand for. -/
def defaults : Shape → List (Text × Data)
  | scriptTable => [("param_block", .null)]
  | blockTable => [("parameters", .list []), ("attributes", .list [])]
  | parameterTable => [("annotations", .list []), ("default", .null)]
  | annotationTable =>
    [("kind", .text "attribute"), ("positional", .list []), ("named", .list []),
     ("extent", .text [])]
  | argumentTable => [("expression", .null)]

/-- The entries that hold lists of tables, with the shape of these. -/
def members : Shape → List (Text × Shape)
  | scriptTable => []
  | blockTable => [("parameters", parameterTable)]
  | parameterTable => [("annotations", annotationTable)]
  | annotationTable => [("named", argumentTable)]
  | argumentTable => []

/-- What a table of a shape describes. -/
abbrev Value : Shape → Type
  | scriptTable => Script
  | blockTable => ParamBlock
  | parameterTable => Parameter
  | annotationTable => Annotation
  | argumentTable => NamedArgument

def ofData : (shape : Shape) → Data → Checked shape.Value
  | scriptTable => Script.ofData
  | blockTable => ParamBlock.ofData
  | parameterTable => Parameter.ofData
  | annotationTable => Annotation.ofData
  | argumentTable => NamedArgument.ofData

end Shape

/-- The second payload spells what the first does: one of its tables has two entries in the other
order, an entry more that nobody asks for, or an entry less that holds its default. -/
inductive Respelled : Shape → Data → Data → Prop
  | swapped {shape : Shape} {es fs : List (Text × Data)} {k k' : Text} {v v' : Data} :
      k ≠ k' → Respelled shape (.table (es ++ (k, v) :: (k', v') :: fs))
        (.table (es ++ (k', v') :: (k, v) :: fs))
  | added {shape : Shape} {es fs : List (Text × Data)} {k : Text} {v : Data} :
      k ∉ shape.fields → Respelled shape (.table (es ++ fs)) (.table (es ++ (k, v) :: fs))
  | leftOut {shape : Shape} {es fs : List (Text × Data)} {k : Text} {v : Data} :
      (k, v) ∈ shape.defaults → fs.lookup k = none →
      Respelled shape (.table (es ++ (k, v) :: fs)) (.table (es ++ fs))
  | member {shape inner : Shape} {es fs : List (Text × Data)} {k : Text} {ds ds' : List Data}
      {d d' : Data} :
      (k, inner) ∈ shape.members → Respelled inner d d' →
      Respelled shape (.table (es ++ (k, .list (ds ++ d :: ds')) :: fs))
        (.table (es ++ (k, .list (ds ++ d' :: ds')) :: fs))
  | block {es fs : List (Text × Data)} {d d' : Data} :
      Respelled .blockTable d d' →
      Respelled .scriptTable (.table (es ++ (("param_block" : Text), d) :: fs))
        (.table (es ++ (("param_block" : Text), d') :: fs))

/-! ### What a table is asked for -/

section
variable {α : Type} {check : Data → Checked α} {default : α} {key k : Text} {v : Data}
  {es fs : List (Text × Data)}

theorem Checked.required_insert_of_ne (h : k ≠ key) :
    required check (es ++ (k, v) :: fs) key = required check (es ++ fs) key := by
  rw [required, required, lookup_insert_of_ne h]

theorem Checked.optional_insert_of_ne (h : k ≠ key) :
    Checked.optional check default (es ++ (k, v) :: fs) key =
      Checked.optional check default (es ++ fs) key := by
  rw [Checked.optional, Checked.optional, lookup_insert_of_ne h]

/-- An entry that holds its default may be left out. -/
theorem Checked.optional_leftOut (hf : fs.lookup k = none) (hv : check v = ok default) :
    Checked.optional check default (es ++ (k, v) :: fs) k =
      Checked.optional check default (es ++ fs) k := by
  rw [Checked.optional, Checked.optional, lookup_insert_self, List.lookup_append, hf]
  cases es.lookup k with
  | none =>
    show (check v).under (.key k) = ok default
    rw [hv]
    rfl
  | some d => rfl

/-- Values that are read alike can stand for each other in an entry. -/
theorem Checked.optional_replace {d d' : Data} (h : check d' = check d) :
    Checked.optional check default (es ++ (k, d') :: fs) k =
      Checked.optional check default (es ++ (k, d) :: fs) k := by
  rw [Checked.optional, Checked.optional, lookup_insert_self, lookup_insert_self]
  cases es.lookup k with
  | none =>
    show (check d').under (.key k) = (check d).under (.key k)
    rw [h]
  | some d => rfl

end

section
variable (es : List (Text × Data))

theorem Script.ofData_table : ofData (.table es) =
    Script.mk <$> Checked.optional (nullable ParamBlock.ofData) none es "param_block" := rfl

theorem ParamBlock.ofData_table : ofData (.table es) =
    ParamBlock.mk <$> Checked.optional (list Parameter.ofData) [] es "parameters"
      <*> Checked.optional (list text) [] es "attributes" := rfl

theorem Parameter.ofData_table : ofData (.table es) =
    Parameter.mk <$> required text es "name"
      <*> Checked.optional (list Annotation.ofData) [] es "annotations"
      <*> Checked.optional (nullable text) none es "default"
      <*> required text es "extent" := rfl

theorem Annotation.ofData_table : ofData (.table es) =
    Annotation.mk <$> required text es "tag"
      <*> Checked.optional AnnotationKind.ofData .attr es "kind"
      <*> Checked.optional (list text) [] es "positional"
      <*> Checked.optional (list NamedArgument.ofData) [] es "named"
      <*> Checked.optional text [] es "extent" := rfl

theorem NamedArgument.ofData_table : ofData (.table es) =
    NamedArgument.mk <$> required text es "name"
      <*> Checked.optional (nullable text) none es "expression" := rfl

end

namespace Shape

variable {shape : Shape} {es fs : List (Text × Data)} {k : Text}

/-- The order of two entries does not matter. -/
theorem ofData_swapped {k' : Text} {v v' : Data} (h : k ≠ k') :
    shape.ofData (.table (es ++ (k', v') :: (k, v) :: fs)) =
      shape.ofData (.table (es ++ (k, v) :: (k', v') :: fs)) := by
  have hl (key : Text) : (es ++ (k', v') :: (k, v) :: fs).lookup key =
      (es ++ (k, v) :: (k', v') :: fs).lookup key := by
    by_cases hk : k = key
    · subst hk
      rw [lookup_insert_of_ne h.symm, lookup_insert_self, lookup_insert_self]
    · rw [lookup_insert_of_ne hk, List.append_cons, lookup_insert_of_ne hk, ← List.append_cons]
  cases shape <;>
    simp only [Shape.ofData, Script.ofData_table, ParamBlock.ofData_table, Parameter.ofData_table,
      Annotation.ofData_table, NamedArgument.ofData_table, required, Checked.optional, hl]

/-- An entry that a shape does not know changes nothing. -/
theorem ofData_added {v : Data} (h : k ∉ shape.fields) :
    shape.ofData (.table (es ++ (k, v) :: fs)) = shape.ofData (.table (es ++ fs)) := by
  cases shape <;> simp only [fields, List.mem_cons, List.not_mem_nil, or_false, not_or] at h <;>
    simp only [Shape.ofData, Script.ofData_table, ParamBlock.ofData_table, Parameter.ofData_table,
      Annotation.ofData_table, NamedArgument.ofData_table, required_insert_of_ne,
      optional_insert_of_ne, h, ne_eq, not_false_eq_true]

/-- An entry that holds its default may be left out of a table. -/
theorem ofData_leftOut {v : Data} (h : (k, v) ∈ shape.defaults) (hf : fs.lookup k = none) :
    shape.ofData (.table (es ++ (k, v) :: fs)) = shape.ofData (.table (es ++ fs)) := by
  cases shape <;>
    simp only [defaults, List.mem_cons, List.not_mem_nil, or_false, Prod.mk.injEq] at h
  case scriptTable =>
    obtain ⟨rfl, rfl⟩ := h
    simp (disch := decide) only [Shape.ofData, Script.ofData_table, optional_leftOut hf]
  case blockTable =>
    rcases h with ⟨rfl, rfl⟩ | ⟨rfl, rfl⟩ <;>
      simp (disch := decide) only [Shape.ofData, ParamBlock.ofData_table, optional_insert_of_ne,
        optional_leftOut hf]
  case parameterTable =>
    rcases h with ⟨rfl, rfl⟩ | ⟨rfl, rfl⟩ <;>
      simp (disch := decide) only [Shape.ofData, Parameter.ofData_table, required_insert_of_ne,
        optional_insert_of_ne, optional_leftOut hf]
  case annotationTable =>
    rcases h with ⟨rfl, rfl⟩ | ⟨rfl, rfl⟩ | ⟨rfl, rfl⟩ | ⟨rfl, rfl⟩ <;>
      simp (disch := decide) only [Shape.ofData, Annotation.ofData_table, required_insert_of_ne,
        optional_insert_of_ne, optional_leftOut hf]
  case argumentTable =>
    obtain ⟨rfl, rfl⟩ := h
    simp (disch := decide) only [Shape.ofData, NamedArgument.ofData_table, required_insert_of_ne,
      optional_leftOut hf]

/-- Members that are read alike can stand for each other. -/
theorem ofData_member {inner : Shape} {d d' : Data} (ds ds' : List Data)
    (h : (k, inner) ∈ shape.members) (hd : inner.ofData d' = inner.ofData d) :
    shape.ofData (.table (es ++ (k, .list (ds ++ d' :: ds')) :: fs)) =
      shape.ofData (.table (es ++ (k, .list (ds ++ d :: ds')) :: fs)) := by
  have hl : list inner.ofData (.list (ds ++ d' :: ds')) =
      list inner.ofData (.list (ds ++ d :: ds')) := items_congr hd 0 ds ds'
  cases shape <;>
    simp only [members, List.mem_cons, List.not_mem_nil, or_false, Prod.mk.injEq] at h
  all_goals
    obtain ⟨rfl, rfl⟩ := h
    simp only [Shape.ofData] at hl
  case blockTable =>
    simp (disch := decide) only [Shape.ofData, ParamBlock.ofData_table, optional_insert_of_ne,
      optional_replace hl]
  case parameterTable =>
    simp (disch := decide) only [Shape.ofData, Parameter.ofData_table, required_insert_of_ne,
      optional_insert_of_ne, optional_replace hl]
  case annotationTable =>
    simp (disch := decide) only [Shape.ofData, Annotation.ofData_table, required_insert_of_ne,
      optional_insert_of_ne, optional_replace hl]

end Shape

namespace Respelled

theorem exists_table {shape : Shape} {d d' : Data} (h : Respelled shape d d') :
    ∃ es es', d = .table es ∧ d' = .table es' := by
  cases h <;> exact ⟨_, _, rfl, rfl⟩

/-- **Another spelling is read alike**, with the same problems if there are any. -/
theorem ofData_eq {shape : Shape} {d d' : Data} (h : Respelled shape d d') :
    shape.ofData d' = shape.ofData d := by
  induction h with
  | swapped hk => exact Shape.ofData_swapped hk
  | added hk => exact Shape.ofData_added hk
  | leftOut hv hf => exact (Shape.ofData_leftOut hv hf).symm
  | member hm _ ih => exact Shape.ofData_member _ _ hm ih
  | @block es fs d d' h ih =>
    obtain ⟨_, _, rfl, rfl⟩ := h.exists_table
    have hn := congrArg (some <$> ·) ih
    exact congrArg (Script.mk <$> ·) (optional_replace hn)

end Respelled

/-- **Every spelling of a script's data gives the script**, and from a text that reads as the script
the same function is generated as from the data. -/
theorem Script.ofData_respelled (s : Script) (d : Data)
    (h : Relation.ReflTransGen (Respelled .scriptTable) s.toData d) :
    ofData d = ok s ∧ ∀ (settings : Settings) (t : Text), Script.read t = .ok s →
      ∃ g, (Script.read t).map (Script.generate? settings) = .ok g ∧
        Script.generate? settings <$> ofData d = ok g := by
  have hd : ofData d = ok s := by
    induction h with
    | refl => exact s.ofData_toData
    | tail _ hr ih => exact hr.ofData_eq.trans ih
  refine ⟨hd, fun settings t ht => ⟨s.generate? settings, ?_, ?_⟩⟩
  · rw [ht]
    rfl
  · rw [hd]
    rfl

/-- A marker without its kind, with an entry of its own, on a parameter that leaves its default
out. -/
theorem Script.ofData_respelled_marker :
    let a : Annotation :=
      { tag := "Dynamic", positional := ["\x7b\x7d"], extent := "[Dynamic(\x7b\x7d)]" }
    let s : Script := { block := some { parameters :=
      [{ name := "A", annotations := [a], extent := "[Dynamic(\x7b\x7d)]$A" }] } }
    let marker : Data := .table [("tag", .text a.tag), ("line", .int 1),
      ("positional", .list [.text "\x7b\x7d"]), ("named", .list []), ("extent", .text a.extent)]
    let d : Data := .table [("param_block", .table [("parameters", .list [.table
      [("name", .text "A"), ("annotations", .list [marker]),
       ("extent", .text "[Dynamic(\x7b\x7d)]$A")]]), ("attributes", .list [])])]
    Relation.ReflTransGen (Respelled .scriptTable) s.toData d ∧
      ofData d = ok s ∧ Script.read "param([Dynamic(\x7b\x7d)]$A)" = .ok s ∧
      ∃ g, (Script.read "param([Dynamic(\x7b\x7d)]$A)").map (Script.generate? {}) = .ok g ∧
        Script.generate? {} <$> ofData d = ok g := by
  intro a s marker d
  let b : List (Text × Data) :=
    [("positional", .list [.text "\x7b\x7d"]), ("named", .list []), ("extent", .text a.extent)]
  -- a change of the marker is one of the script
  have hm {m m' : Data} (h : Respelled .annotationTable m m') :
      Respelled .parameterTable
        (.table [("name", .text "A"), ("annotations", .list [m]), ("default", .null),
          ("extent", .text "[Dynamic(\x7b\x7d)]$A")])
        (.table [("name", .text "A"), ("annotations", .list [m']), ("default", .null),
          ("extent", .text "[Dynamic(\x7b\x7d)]$A")]) :=
    @Respelled.member _ .annotationTable [_] [_, _] _ [] [] _ _ (.head _) h
  have hs {p p' : Data} (h : Respelled .parameterTable p p') :
      Respelled .scriptTable
        (.table [("param_block", .table [("parameters", .list [p]), ("attributes", .list [])])])
        (.table [("param_block", .table [("parameters", .list [p']), ("attributes", .list [])])]) :=
    @Respelled.block [] [] _ _ (@Respelled.member _ .parameterTable [] [_] _ [] [] _ _ (.head _) h)
  have h : Relation.ReflTransGen (Respelled .scriptTable) s.toData d := by
    refine ((Relation.ReflTransGen.single
      (hs (hm (@Respelled.leftOut _ [_] b _ _ (.head _) ?_)))).tail
      (hs (hm (@Respelled.added _ [_] b "line" (.int 1) ?_)))).tail
      (hs (@Respelled.leftOut _ [_, _] [_] "default" _ (by simp [Shape.defaults]) ?_))
    · decide
    · decide
    · decide
  have hr : Script.read "param([Dynamic(\x7b\x7d)]$A)" = .ok s :=
    eq_ok_of_toOption (by decide +kernel)
  obtain ⟨hd, hg⟩ := Script.ofData_respelled s d h
  exact ⟨h, hd, hr, hg {} _ hr⟩

end CondParam
