import CondParam.Proofs.Classification
import CondParam.Proofs.Group
import CondParam.Response
import CondParam.Script.Read
import Mathlib.Data.List.Forall2
import Mathlib.Data.List.Nodup

/-!
# What a response says of static declarations

There is one entry for each declaration without a marker, in order, with its name and its extent.
Type and default are looked up by name, and the last declaration of a name is found
(`Script.lastDeclaration?_eq_some_iff`), static or conditional. So an entry tells the type and the
default of its own declaration if the last declaration of the name has the same ones
(`Script.static_response_iff`), as it has when no name is declared twice; else it need not
(`Script.static_response_repeated`).
-/

set_option autoImplicit false

namespace CondParam

/-- The view tells what the declaration says. -/
def ParameterView.Describes (v : ParameterView) (p : Parameter) : Prop :=
  v.name = p.name ∧ v.extent = some p.extent ∧ v.default = p.default ∧
    v.resolvedType = p.typeName

/-- A static declaration, shown with the type and the default of another one. -/
def Parameter.viewWith (p q : Parameter) : ParameterView where
  name := p.name
  isDynamic := false
  resolvedType := q.typeName
  default := q.default
  extent := some p.extent

theorem Parameter.describes_viewWith {p q : Parameter} :
    (p.viewWith q).Describes p ↔ q.default = p.default ∧ q.typeName = p.typeName := by
  constructor
  · rintro ⟨-, -, hd, ht⟩
    exact ⟨hd, ht⟩
  · rintro ⟨hd, ht⟩
    exact ⟨rfl, rfl, hd, ht⟩

namespace ParamBlock

/-- The declarations without a marker, in order. -/
def staticDeclarations (marker : Text) (b : ParamBlock) : List Parameter :=
  b.parameters.filter fun p => ∀ a ∈ p.annotations, a.role marker ≠ .marker

/-- No declaration behind this one has its name. -/
def IsLast (b : ParamBlock) (q : Parameter) : Prop :=
  ∃ before after, b.parameters = before ++ q :: after ∧ ∀ p ∈ after, p.name ≠ q.name

theorem staticDeclarations_eq (marker : Text) (b : ParamBlock) :
    b.staticDeclarations marker = b.parameters.filter fun p => !p.isConditional marker := by
  refine List.filter_congr fun p _ => Bool.eq_iff_iff.2 ?_
  rw [decide_eq_true_iff, Bool.not_eq_true', ← Bool.not_eq_true, Parameter.isConditional_iff]
  constructor
  · rintro h ⟨a, ha, hr⟩
    exact h a ha hr
  · intro h a ha hr
    exact h ⟨a, ha, hr⟩

theorem mem_of_mem_staticDeclarations {marker : Text} {b : ParamBlock} {p : Parameter}
    (h : p ∈ b.staticDeclarations marker) : p ∈ b.parameters :=
  (List.mem_filter.1 h).1

theorem IsLast.mem {b : ParamBlock} {q : Parameter} (h : b.IsLast q) : q ∈ b.parameters := by
  obtain ⟨before, after, he, -⟩ := h
  rw [he]
  exact List.mem_append_right _ List.mem_cons_self

end ParamBlock

namespace Script

variable {script : Script} {b : ParamBlock}

/-- **The last declaration of a name is found.** -/
theorem lastDeclaration?_eq_some_iff (hb : script.block = some b) {name : Text} {q : Parameter} :
    script.lastDeclaration? name = some q ↔ b.IsLast q ∧ q.name = name := by
  have hl : script.lastDeclaration? name = b.parameters.reverse.find? (·.name = name) := by
    unfold lastDeclaration?
    rw [hb]
    rfl
  rw [hl, List.find?_eq_some_iff_append, decide_eq_true_iff]
  constructor
  · rintro ⟨hq, after, before, he, hafter⟩
    refine ⟨⟨before.reverse, after.reverse, ?_, fun p hp => ?_⟩, hq⟩
    · rw [← List.reverse_reverse b.parameters, he, List.reverse_append, List.reverse_cons,
        List.append_assoc, List.singleton_append]
    · have hn := hafter p (List.mem_reverse.1 hp)
      rw [hq]
      simpa using hn
  · rintro ⟨⟨before, after, he, hafter⟩, hq⟩
    refine ⟨hq, after.reverse, before.reverse, ?_, fun p hp => ?_⟩
    · rw [he, List.reverse_append, List.reverse_cons, List.append_assoc, List.singleton_append]
    · have hn := hafter p (List.mem_reverse.1 hp)
      rw [hq] at hn
      simpa using hn

/-- Every name that is declared is declared a last time. -/
theorem exists_lastDeclaration (hb : script.block = some b) {p : Parameter}
    (hp : p ∈ b.parameters) : ∃ q, script.lastDeclaration? p.name = some q := by
  unfold lastDeclaration?
  rw [hb]
  refine Option.isSome_iff_exists.1 (List.find?_isSome.2 ⟨p, List.mem_reverse.2 hp, ?_⟩)
  exact decide_eq_true rfl

theorem staticView_eq {p q : Parameter} (hq : script.lastDeclaration? p.name = some q) :
    script.staticView p.name p.extent = p.viewWith q := by
  simp only [staticView, hq, Option.bind_some]
  rfl

/-- There is one entry for each declaration without a marker. -/
theorem static_response (script : Script) (s : Settings) (b : ParamBlock) :
    ((b.classify s).response script).static =
      (b.staticDeclarations s.marker).map fun p => script.staticView p.name p.extent := by
  rw [b.staticDeclarations_eq]
  simp only [Classification.response, ParamBlock.classify, classify_eq, List.zip_map',
    List.map_map]
  rfl

theorem describes_staticView_iff (hb : script.block = some b) {p : Parameter}
    (hp : p ∈ b.parameters) :
    (script.staticView p.name p.extent).Describes p ↔
      ∀ q, b.IsLast q → q.name = p.name → q.default = p.default ∧ q.typeName = p.typeName := by
  obtain ⟨l, hl⟩ := exists_lastDeclaration hb hp
  rw [staticView_eq hl, Parameter.describes_viewWith]
  constructor
  · intro h q hq hn
    have hql := (lastDeclaration?_eq_some_iff hb).2 ⟨hq, hn⟩
    cases hl.symm.trans hql
    exact h
  · intro h
    obtain ⟨hlast, hn⟩ := (lastDeclaration?_eq_some_iff hb).1 hl
    exact h l hlast hn

/-- **An entry shows its own declaration with the type and the default of the last one of its
name**, so all entries describe their declarations if and only if these are the same. They are when
no name is declared twice. -/
theorem static_response_iff (hb : script.block = some b) (s : Settings) :
    ∃ k, script.classify? s = some k ∧
      List.Forall₂ (fun v p => ∃ q, b.IsLast q ∧ q.name = p.name ∧ v = p.viewWith q)
        (k.response script).static (b.staticDeclarations s.marker) ∧
      (List.Forall₂ ParameterView.Describes (k.response script).static
          (b.staticDeclarations s.marker) ↔
        ∀ p ∈ b.staticDeclarations s.marker, ∀ q, b.IsLast q → q.name = p.name →
          q.default = p.default ∧ q.typeName = p.typeName) ∧
      ((b.parameters.map (·.name)).Nodup →
        List.Forall₂ ParameterView.Describes (k.response script).static
          (b.staticDeclarations s.marker)) := by
  have hd : List.Forall₂ ParameterView.Describes ((b.classify s).response script).static
      (b.staticDeclarations s.marker) ↔
      ∀ p ∈ b.staticDeclarations s.marker, ∀ q, b.IsLast q → q.name = p.name →
        q.default = p.default ∧ q.typeName = p.typeName := by
    rw [static_response, List.forall₂_map_left_iff, List.forall₂_same]
    refine forall₂_congr fun p hp => ?_
    exact describes_staticView_iff hb (ParamBlock.mem_of_mem_staticDeclarations hp)
  refine ⟨b.classify s, ?_, ?_, hd, fun hnodup => hd.2 fun p hp q hq hn => ?_⟩
  · unfold classify?
    rw [hb]
    rfl
  · rw [static_response, List.forall₂_map_left_iff, List.forall₂_same]
    intro p hp
    obtain ⟨q, hq⟩ := exists_lastDeclaration hb (ParamBlock.mem_of_mem_staticDeclarations hp)
    obtain ⟨hlast, hn⟩ := (lastDeclaration?_eq_some_iff hb).1 hq
    exact ⟨q, hlast, hn, staticView_eq hq⟩
  · have he := List.inj_on_of_nodup_map hnodup hq.mem
      (ParamBlock.mem_of_mem_staticDeclarations hp) hn
    rw [he]
    exact ⟨rfl, rfl⟩

/-- A static declaration beside a conditional one. -/
theorem static_response_iff_conditional :
    let p : Parameter :=
      { name := "A", annotations := [{ tag := "int", kind := .typeConstraint }],
        default := some "1", extent := "[int]$A = 1" }
    let q : Parameter :=
      { name := "B", annotations := [{ tag := "Dynamic" }], extent := "[Dynamic()]$B" }
    let b : ParamBlock := { parameters := [q, p] }
    let script : Script := { block := some b }
    script.block = some b ∧ (b.parameters.map (·.name)).Nodup ∧
      b.staticDeclarations ({} : Settings).marker = [p] ∧
      ∃ k, script.classify? {} = some k ∧
        List.Forall₂ ParameterView.Describes (k.response script).static
          (b.staticDeclarations ({} : Settings).marker) := by
  intro p q b script
  have hn : (b.parameters.map (·.name)).Nodup := by decide
  obtain ⟨k, hk, -, -, hd⟩ := @static_response_iff script b rfl {}
  exact ⟨rfl, hn, by decide +kernel, k, hk, hd hn⟩

/-- **Of two declarations of one name, the first is shown with what the second says.** -/
theorem static_response_repeated :
    let p : Parameter :=
      { name := "x", annotations := [{ tag := "int", kind := .typeConstraint, extent := "[int]" }],
        default := some "1", extent := "[int]$x = 1" }
    let q : Parameter :=
      { name := "x",
        annotations := [{ tag := "string", kind := .typeConstraint, extent := "[string]" }],
        extent := "[string]$x" }
    let b : ParamBlock := { parameters := [p, q] }
    let script : Script := { block := some b }
    Script.read "param([int]$x = 1, [string]$x)" = .ok script ∧
      b.staticDeclarations ({} : Settings).marker = [p, q] ∧
      ((b.classify {}).response script).static = [p.viewWith q, q.viewWith q] ∧
      ¬ List.Forall₂ ParameterView.Describes ((b.classify {}).response script).static
        (b.staticDeclarations ({} : Settings).marker) := by
  intro p q b script
  have hs : b.staticDeclarations ({} : Settings).marker = [p, q] := by decide +kernel
  have hv : ((b.classify {}).response script).static = [p.viewWith q, q.viewWith q] := by
    rw [static_response, hs]
    decide +kernel
  refine ⟨eq_ok_of_toOption (by decide +kernel), hs, hv, ?_⟩
  rw [hv, hs]
  intro h
  obtain ⟨hp, -⟩ := List.forall₂_cons.1 h
  have hd := (Parameter.describes_viewWith.1 hp).1
  cases hd

end Script

end CondParam
