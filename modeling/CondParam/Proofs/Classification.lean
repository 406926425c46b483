import CondParam.Generation
import CondParam.Proofs.Emission

/-!
# What classification says

Each declaration goes to one of two lists, whatever stands before it and whatever names are reserved
(`classify_splits`). What is said about a declaration depends on the declaration alone
(`Parameter.warnings_eq`); of everything that is said, the report keeps the first of each code for a
name, and generation has nothing to add (`classify_diagnostics`).
-/

set_option autoImplicit false

namespace CondParam

/-! ## One declaration -/

namespace Parameter

/-- Whether a marker makes the parameter conditional. -/
def isConditional (marker : Text) (p : Parameter) : Bool := !(p.withRole marker .marker).isEmpty

/-- The argument of the first marker. -/
def rawCondition? (marker : Text) (p : Parameter) : Option Text :=
  (p.withRole marker .marker).head?.bind (·.positional.head?)

/-- The condition that the first marker gives. -/
def condition (marker : Text) (p : Parameter) : Text :=
  ((p.rawCondition? marker).map stripCondition).getD []

/-- The conditional parameter that a declaration with a marker stands for. -/
def toConditional (marker : Text) (p : Parameter) : Conditional :=
  let constraints := p.withRole marker .typeConstraint
  let generic := p.withRole marker .generic
  { name := p.name
    condition := p.condition marker
    resolvedType := (constraints.map (·.tag)).headD "Object"
    annotations := generic
    default := p.default
    pipelineAware := generic.any fun a => a.named.any (·.isPipelineFlag)
    hasParameterAttribute := generic.any (·.isParameterAttribute)
    untyped := constraints.isEmpty }

/-- What is said about the condition of the first marker. -/
def conditionWarnings (marker : Text) (p : Parameter) : List Diagnostic :=
  match p.rawCondition? marker with
  | none => [.emptyMarker p.name]
  | some raw =>
    let c := stripCondition raw
    if !c.isEmpty && c.isBlank then [.ambiguousCondition p.name] else []

/-- What is said about a conditional parameter. -/
def markerWarnings (marker : Text) (p : Parameter) : List Diagnostic :=
  let count := (p.withRole marker .marker).length
  (if 1 < count then [.duplicateMarker p.name marker count] else []) ++
    p.conditionWarnings marker ++
    if (p.withRole marker .typeConstraint).isEmpty then [.untyped p.name] else []

/-- Everything there is to say about a declaration, in order. -/
def warnings (s : Settings) (p : Parameter) : List Diagnostic :=
  (reservedCollision p.name s.reserved).toList.map (Diagnostic.reserved p.name) ++
    if p.isConditional s.marker then p.markerWarnings s.marker else []

theorem foldl_addByRole (marker : Text) (as : List Annotation)
    (sorted : List Text × List Annotation) :
    as.foldl (addByRole marker) sorted =
      (sorted.1 ++ (as.filter (·.role marker = .typeConstraint)).map (·.tag),
        sorted.2 ++ as.filter (·.role marker = .generic)) := by
  induction as generalizing sorted with
  | nil => simp
  | cons a as ih =>
    rw [List.foldl_cons, ih]
    cases h : a.role marker <;> simp [addByRole, h]

theorem constraintsAndGeneric_eq (marker : Text) (p : Parameter) :
    p.constraintsAndGeneric marker =
      ((p.withRole marker .typeConstraint).map (·.tag), p.withRole marker .generic) := by
  unfold constraintsAndGeneric
  rw [foldl_addByRole]
  rfl

section
variable {s : Settings} {p : Parameter} {first : Annotation} {others : List Annotation}

/-- What the first marker gives is the condition, whatever was reported before. -/
theorem condition_first (h : p.withRole s.marker .marker = first :: others) (report : Report) :
    first.condition p.name report =
      (p.condition s.marker, report.extend (p.conditionWarnings s.marker)) := by
  have hraw : p.rawCondition? s.marker = first.positional.head? := by rw [rawCondition?, h]; rfl
  unfold Annotation.condition Parameter.condition conditionWarnings
  rw [hraw]
  cases first.positional.head? with
  | none => rfl
  | some raw =>
    simp only [Option.map_some, Option.getD_some]
    split <;> rfl

/-- **A declaration with markers** gives a parameter that only the declaration and the marker
determine; the report goes on with what is said of it. -/
theorem conditional_eq (h : p.withRole s.marker .marker = first :: others) (report : Report) :
    p.conditional s report first others =
      (p.toConditional s.marker, report.extend (p.markerWarnings s.marker)) := by
  have hcount : others.length + 1 = (p.withRole s.marker .marker).length := by rw [h]; rfl
  have htyped : ((p.withRole s.marker .typeConstraint).map (·.tag)).isEmpty =
      (p.withRole s.marker .typeConstraint).isEmpty := List.isEmpty_map
  simp only [conditional, condition_first h, constraintsAndGeneric_eq, hcount, htyped,
    markerWarnings, Report.extend_append]
  refine Prod.ext rfl ?_
  split <;> split <;> rfl

end

end Parameter

/-! ## The loop -/

theorem Report.warnReserved_eq (r : Report) (name : Text) (reserved : List Text) :
    r.warnReserved name reserved =
      r.extend ((reservedCollision name reserved).toList.map (Diagnostic.reserved name)) := by
  unfold warnReserved
  cases reservedCollision name reserved <;> rfl

namespace Classifying

/-- **What one declaration adds**: it goes to one list, by its own markers. -/
theorem add_eq (s : Settings) (k : Classifying) (p : Parameter) :
    k.add s p =
      if p.isConditional s.marker then
        { k with dynamic := k.dynamic ++ [p.toConditional s.marker],
                 report := k.report.extend (p.warnings s) }
      else
        { k with static := k.static ++ [p.extent], staticNames := k.staticNames ++ [p.name],
                 report := k.report.extend (p.warnings s) } := by
  rw [add, Report.warnReserved_eq]
  cases h : p.withRole s.marker .marker with
  | nil =>
    have hc : p.isConditional s.marker = false := by rw [Parameter.isConditional, h]; rfl
    simp [hc, Parameter.warnings]
  | cons first others =>
    have hc : p.isConditional s.marker = true := by rw [Parameter.isConditional, h]; rfl
    simp only [Parameter.conditional_eq h, hc, if_true, Parameter.warnings, Report.extend_append]

/-- **What the loop leaves**, by induction over the declarations. -/
theorem addAll_eq (s : Settings) (k : Classifying) (ps : List Parameter) :
    k.addAll s ps =
      { static := k.static ++ (ps.filter fun p => !p.isConditional s.marker).map (·.extent)
        staticNames := k.staticNames ++ (ps.filter fun p => !p.isConditional s.marker).map (·.name)
        dynamic := k.dynamic ++
          (ps.filter fun p => p.isConditional s.marker).map (·.toConditional s.marker)
        report := k.report.extend (ps.flatMap (·.warnings s)) } := by
  induction ps generalizing k with
  | nil => simp [addAll, Report.extend]
  | cons p ps ih =>
    have hr : k.addAll s (p :: ps) = (k.add s p).addAll s ps := rfl
    rw [hr, ih, add_eq]
    cases h : p.isConditional s.marker <;> simp [h, Report.extend_append]

end Classifying

/-- **Classification is a partition** by the markers, with everything that is said reported. -/
theorem classify_eq (s : Settings) (report : Report) (ps : List Parameter) :
    classify s report ps =
      { static := (ps.filter fun p => !p.isConditional s.marker).map (·.extent)
        staticNames := (ps.filter fun p => !p.isConditional s.marker).map (·.name)
        dynamic := (ps.filter fun p => p.isConditional s.marker).map (·.toConditional s.marker)
        diagnostics := (report.extend (ps.flatMap (·.warnings s))).entries } := by
  rw [classify, Classifying.addAll_eq]
  rfl

/-! ## Lists -/

/-- Declarations with their markers told apart: extents and names of those without a marker, and the
conditional parameters of those with one, each in order. -/
inductive Splits (marker : Text) :
    List Parameter → List Text → List Text → List Conditional → Prop
  | nil : Splits marker [] [] [] []
  | static {p : Parameter} {ps : List Parameter} {extents names : List Text}
      {conditionals : List Conditional} :
      (∀ a ∈ p.annotations, a.role marker ≠ .marker) →
      Splits marker ps extents names conditionals →
      Splits marker (p :: ps) (p.extent :: extents) (p.name :: names) conditionals
  | conditional {p : Parameter} {ps : List Parameter} {extents names : List Text}
      {conditionals : List Conditional} :
      (∃ a ∈ p.annotations, a.role marker = .marker) →
      Splits marker ps extents names conditionals →
      Splits marker (p :: ps) extents names (p.toConditional marker :: conditionals)

/-- A parameter is conditional if it has a marker. -/
theorem Parameter.isConditional_iff {marker : Text} {p : Parameter} :
    p.isConditional marker = true ↔ ∃ a ∈ p.annotations, a.role marker = .marker := by
  simp [isConditional, withRole]

namespace Classification

/-- The same lists, whatever was said. -/
structure SameLists (k l : Classification) : Prop where
  static : k.static = l.static
  staticNames : k.staticNames = l.staticNames
  dynamic : k.dynamic = l.dynamic

/-- Declarations classified behind others. -/
def andThen (k l : Classification) : Classification :=
  { static := k.static ++ l.static
    staticNames := k.staticNames ++ l.staticNames
    dynamic := k.dynamic ++ l.dynamic
    diagnostics := l.diagnostics }

theorem SameLists.andThen {k k' l l' : Classification} (hk : k.SameLists k')
    (hl : l.SameLists l') : (k.andThen l).SameLists (k'.andThen l') := by
  obtain ⟨hs, hn, hd⟩ := hk
  obtain ⟨hs', hn', hd'⟩ := hl
  constructor <;> simp only [Classification.andThen, hs, hn, hd, hs', hn', hd']

end Classification

section
variable (s : Settings) (report : Report) (ps : List Parameter)

theorem classify_split :
    Splits s.marker ps (classify s report ps).static (classify s report ps).staticNames
      (classify s report ps).dynamic := by
  induction ps with
  | nil => exact .nil
  | cons p ps ih =>
    by_cases h : p.isConditional s.marker = true
    · simp only [classify_eq, List.filter_cons, h, Bool.not_true, if_true] at ih ⊢
      exact .conditional (Parameter.isConditional_iff.1 h) ih
    · have hp : ∀ a ∈ p.annotations, a.role s.marker ≠ .marker := fun a ha hr =>
        h (Parameter.isConditional_iff.2 ⟨a, ha, hr⟩)
      rw [Bool.not_eq_true] at h
      simp only [classify_eq, List.filter_cons, h, Bool.not_false, if_true] at ih ⊢
      exact .static hp ih

/-- The lists depend on the declarations and the marker. -/
theorem classify_sameLists {s' : Settings} (h : s'.marker = s.marker) (report' : Report) :
    (classify s' report' ps).SameLists (classify s report ps) := by
  constructor <;> simp only [classify_eq, h]

/-- **Classification goes on where it stopped.** -/
theorem classify_append (qs : List Parameter) :
    classify s report (ps ++ qs) =
      (classify s report ps).andThen
        (classify s (Classifying.addAll s { report } ps).report qs) := by
  simp only [classify_eq, Classifying.addAll_eq, Classification.andThen, List.filter_append,
    List.map_append, List.flatMap_append, Report.extend_append]

end

/-! ## Diagnostics -/

namespace Parameter

/-- The diagnostics that a declaration can give rise to, in the order in which they are looked
for. -/
def diagnosticOrder : List DiagnosticCode :=
  [.reservedName, .duplicateMarker, .emptyMarker, .ambiguousCondition, .untypedParameter]

/-- When a declaration gives rise to a diagnostic. -/
def Raises (s : Settings) (p : Parameter) : DiagnosticCode → Prop
  | .reservedName => p.name.lower ≠ [] ∧ ∃ r ∈ s.reserved, p.name.lower <+: r.lower
  | .duplicateMarker => 2 ≤ (p.withRole s.marker .marker).length
  | .emptyMarker => ∃ m ∈ (p.withRole s.marker .marker).head?, m.positional = []
  | .ambiguousCondition =>
    ∃ m ∈ (p.withRole s.marker .marker).head?, ∃ raw ∈ m.positional.head?,
      stripCondition raw ≠ [] ∧ (stripCondition raw).isBlank = true
  | .untypedParameter =>
    (∃ a ∈ p.annotations, a.role s.marker = .marker) ∧
      ∀ a ∈ p.annotations, a.role s.marker ≠ .typeConstraint

instance (s : Settings) (p : Parameter) : DecidablePred (p.Raises s)
  | .reservedName => inferInstanceAs (Decidable (_ ∧ _))
  | .duplicateMarker => inferInstanceAs (Decidable (_ ≤ _))
  | .emptyMarker => inferInstanceAs (Decidable (∃ m ∈ (p.withRole s.marker .marker).head?, _))
  | .ambiguousCondition =>
    inferInstanceAs (Decidable (∃ m ∈ (p.withRole s.marker .marker).head?, _))
  | .untypedParameter => inferInstanceAs (Decidable (_ ∧ _))

/-- What a diagnostic says: of a reserved name, which one is taken (the first); of the markers, how
many there are. -/
def message (s : Settings) (p : Parameter) : DiagnosticCode → Text
  | .reservedName =>
    match s.reserved.find? fun r => p.name.lower <+: r.lower with
    | none => []
    | some r =>
      if r.lower = p.name.lower then .concat ["shadows the common parameter -", r]
      else .concat ["is an ambiguous abbreviation of the common parameter -", r]
  | .duplicateMarker =>
    .concat [.ofNat (p.withRole s.marker .marker).length, " [", s.marker,
      "] markers; only the first is honoured"]
  | .emptyMarker => "marker has no condition; the parameter is always registered"
  | .ambiguousCondition => "condition is blank but not empty; carried through literally"
  | .untypedParameter => "no type constraint; registered as [Object]"

/-- What is said for one code. -/
def said (s : Settings) (p : Parameter) (code : DiagnosticCode) : List Diagnostic :=
  if p.Raises s code then [⟨code, p.name, p.message s code⟩] else []

/-- Everything that is said of a declaration, in order. -/
def raised (s : Settings) (p : Parameter) : List Diagnostic := diagnosticOrder.flatMap (p.said s)

section
variable {s : Settings} {p : Parameter}

theorem said_of_raises {code : DiagnosticCode} (h : p.Raises s code) :
    p.said s code = [⟨code, p.name, p.message s code⟩] :=
  if_pos h

theorem said_of_not_raises {code : DiagnosticCode} (h : ¬ p.Raises s code) : p.said s code = [] :=
  if_neg h

theorem said_reserved :
    p.said s .reservedName =
      (reservedCollision p.name s.reserved).toList.map (Diagnostic.reserved p.name) := by
  have hp : (fun r : Text => p.name.lower.isPrefixOf r.lower) =
      fun r => decide (p.name.lower <+: r.lower) :=
    funext fun r => Bool.eq_iff_iff.2 (by rw [List.isPrefixOf_iff_prefix, decide_eq_true_iff])
  unfold reservedCollision
  rw [hp]
  by_cases hn : p.name.lower = []
  · have hr : ¬ p.Raises s .reservedName := fun h => h.1 hn
    rw [said_of_not_raises hr, hn]
    rfl
  · rw [if_neg (by simpa using hn)]
    cases hf : s.reserved.find? fun r => p.name.lower <+: r.lower with
    | none =>
      refine said_of_not_raises ?_
      rintro ⟨-, r, hr, hpre⟩
      exact List.find?_eq_none.1 hf r hr (decide_eq_true hpre)
    | some taken =>
      have ht := List.find?_some hf
      have hr : p.Raises s .reservedName :=
        ⟨hn, taken, List.mem_of_find?_eq_some hf, of_decide_eq_true ht⟩
      rw [said_of_raises hr, message, hf]
      rfl

/-- Without a marker nothing is said but that a name is reserved. -/
theorem said_of_not_conditional (h : p.isConditional s.marker = false) {code : DiagnosticCode}
    (hc : code ≠ .reservedName) : p.said s code = [] := by
  have hm : p.withRole s.marker .marker = [] := by simpa [isConditional] using h
  refine said_of_not_raises fun hr => ?_
  cases code with
  | reservedName => exact hc rfl
  | duplicateMarker => simp [Raises, hm] at hr
  | emptyMarker => simp [Raises, hm] at hr
  | ambiguousCondition => simp [Raises, hm] at hr
  | untypedParameter => exact Bool.false_ne_true (h ▸ isConditional_iff.2 hr.1)

theorem said_without_condition (h : p.isConditional s.marker = true)
    (hc : p.rawCondition? s.marker = none) :
    p.said s .emptyMarker = [⟨.emptyMarker, p.name, p.message s .emptyMarker⟩] ∧
      p.said s .ambiguousCondition = [] := by
  obtain ⟨m, hm⟩ : ∃ m, (p.withRole s.marker .marker).head? = some m := by
    cases hr : p.withRole s.marker .marker with
    | nil => simp [isConditional, hr] at h
    | cons m ms => exact ⟨m, rfl⟩
  have hnone : m.positional.head? = none := by rwa [rawCondition?, hm] at hc
  constructor
  · exact said_of_raises ⟨m, hm, List.head?_eq_none_iff.1 hnone⟩
  · refine said_of_not_raises ?_
    rintro ⟨m', hm', raw, hraw, -⟩
    cases hm.symm.trans hm'
    cases hnone.symm.trans hraw

theorem said_of_condition {raw : Text} (hc : p.rawCondition? s.marker = some raw) :
    p.said s .emptyMarker = [] ∧
      p.said s .ambiguousCondition =
        if !(stripCondition raw).isEmpty && (stripCondition raw).isBlank then
          [⟨.ambiguousCondition, p.name, p.message s .ambiguousCondition⟩]
        else [] := by
  obtain ⟨m, hm, hraw⟩ := Option.bind_eq_some_iff.1 hc
  constructor
  · refine said_of_not_raises ?_
    rintro ⟨m', hm', hnil⟩
    cases hm.symm.trans hm'
    rw [hnil] at hraw
    cases hraw
  · have hr : p.Raises s .ambiguousCondition ↔
        (!(stripCondition raw).isEmpty && (stripCondition raw).isBlank) = true := by
      rw [Bool.and_eq_true, Bool.not_eq_true', List.isEmpty_eq_false_iff]
      constructor
      · rintro ⟨m', hm', raw', hraw', hb⟩
        cases hm.symm.trans hm'
        cases hraw.symm.trans hraw'
        exact hb
      · intro hb
        exact ⟨m, hm, raw, hraw, hb⟩
    simp only [said, hr]

theorem said_untyped (h : p.isConditional s.marker = true) :
    p.said s .untypedParameter =
      if (p.withRole s.marker .typeConstraint).isEmpty then [.untyped p.name] else [] := by
  have hr : p.Raises s .untypedParameter ↔
      (p.withRole s.marker .typeConstraint).isEmpty = true := by
    have hm := isConditional_iff.1 h
    simp only [Raises, hm, true_and, withRole, List.isEmpty_iff, List.filter_eq_nil_iff,
      decide_eq_true_eq, ne_eq]
  simp only [said, hr]
  rfl

theorem markerWarnings_eq (h : p.isConditional s.marker = true) :
    p.markerWarnings s.marker =
      p.said s .duplicateMarker ++ (p.said s .emptyMarker ++ p.said s .ambiguousCondition) ++
        p.said s .untypedParameter := by
  have hd : p.said s .duplicateMarker = if 1 < (p.withRole s.marker .marker).length then
      [⟨.duplicateMarker, p.name, p.message s .duplicateMarker⟩] else [] := rfl
  rw [hd, said_untyped h]
  cases hc : p.rawCondition? s.marker with
  | none =>
    obtain ⟨he, ha⟩ := said_without_condition h hc
    simp only [markerWarnings, conditionWarnings, hc, he, ha]
    rfl
  | some raw =>
    obtain ⟨he, ha⟩ := said_of_condition hc
    simp only [markerWarnings, conditionWarnings, hc, he, ha]
    rfl

/-- **What is said of a declaration** depends on the declaration alone. -/
theorem warnings_eq (s : Settings) (p : Parameter) : p.warnings s = p.raised s := by
  have hr : p.raised s = p.said s .reservedName ++ (p.said s .duplicateMarker ++
      (p.said s .emptyMarker ++ (p.said s .ambiguousCondition ++
        (p.said s .untypedParameter ++ [])))) := rfl
  have hw : p.warnings s = p.said s .reservedName ++
      if p.isConditional s.marker then p.markerWarnings s.marker else [] := by
    rw [said_reserved, warnings]
  rw [hw, hr]
  cases h : p.isConditional s.marker with
  | true => simp only [if_true, markerWarnings_eq h, List.append_assoc, List.append_nil]
  | false => simp [said_of_not_conditional h]

theorem untyped_mem_warnings (h : p.isConditional s.marker = true)
    (hu : (p.toConditional s.marker).untyped = true) : .untyped p.name ∈ p.warnings s := by
  rw [warnings_eq, raised]
  refine List.mem_flatMap.2 ⟨.untypedParameter, by decide, ?_⟩
  have ht : (p.withRole s.marker .typeConstraint).isEmpty = true := hu
  rw [said_untyped h, if_pos ht]
  exact List.mem_singleton_self _

end

end Parameter

/-- What emission warns of has been said. -/
theorem ParamBlock.report_generate (s : Settings) (b : ParamBlock) :
    (b.generate s).emission.report = (Classifying.addAll s {} b.parameters).report := by
  refine (report_emit _ _ _).trans (Report.extend_of_has fun d hd => ?_)
  obtain ⟨c, hc, rfl⟩ := List.mem_map.1 hd
  obtain ⟨hc, hu⟩ := List.mem_filter.1 hc
  rw [Classifying.addAll_eq] at hc ⊢
  obtain ⟨p, hp, rfl⟩ := List.mem_map.1 hc
  obtain ⟨hp, hm⟩ := List.mem_filter.1 hp
  exact Report.has_extend_of_mem
    (List.mem_flatMap.2 ⟨p, hp, Parameter.untyped_mem_warnings hm hu⟩) {}

theorem Script.diagnostics_generate? (s : Settings) (script : Script) :
    (script.generate? s).map (·.diagnostics) = (script.classify? s).map (·.diagnostics) := by
  cases hb : script.block with
  | none => simp only [generate?, classify?, hb, Option.map_none]
  | some b =>
    simp only [generate?, classify?, hb, Option.map_some]
    exact congrArg (fun r : Report => some r.entries) (b.report_generate s)

/-- **Diagnostics are those of the declarations**, the first of each code for a name, and generation
gives the same as classification, whatever the function is called. -/
theorem classify_diagnostics (s : Settings) :
    (∀ ps, (classify s {} ps).diagnostics =
      (ps.flatMap (·.raised s)).eraseDupsBy Diagnostic.sameKey) ∧
    ∀ script : Script,
      (script.generate? s).map (·.diagnostics) = (script.classify? s).map (·.diagnostics) ∧
      ∀ name t, s.withFunctionName name = .ok t →
        (script.generate? t).map (·.diagnostics) = (script.classify? s).map (·.diagnostics) := by
  constructor
  · intro ps
    have hw : ps.flatMap (·.warnings s) = ps.flatMap (·.raised s) := by
      simp only [Parameter.warnings_eq]
    rw [← hw, classify_eq]
    exact Report.entries_extend_empty _
  · intro script
    refine ⟨script.diagnostics_generate? s, fun name t ht => ?_⟩
    unfold Settings.withFunctionName at ht
    split at ht
    · cases ht
      exact script.diagnostics_generate? _
    · cases ht

/-- A reserved name with two markers, and again with a blank condition: what was said of the first
is not said again. -/
theorem classify_diagnostics_repeated :
    let ps : List Parameter :=
      [{ name := "Verb", annotations := [{ tag := "Dynamic" }, { tag := "dynamicAttribute" }] },
       { name := "Verb", annotations := [{ tag := "Dynamic", positional := ["\x7b \x7d"] }] }]
    let script : Script := { block := some { parameters := ps } }
    let t : Settings := { functionName := "f" }
    (classify {} {} ps).diagnostics.map (·.code) =
        [.reservedName, .duplicateMarker, .emptyMarker, .untypedParameter, .ambiguousCondition] ∧
      Settings.withFunctionName {} "f" = .ok t ∧
      (script.generate? t).map (·.diagnostics) = (script.classify? {}).map (·.diagnostics) := by
  intro ps script t
  have ht : Settings.withFunctionName {} "f" = .ok t := dif_pos (by decide)
  have hps := (classify_diagnostics {}).1 ps
  refine ⟨?_, ht, ((classify_diagnostics {}).2 script).2 "f" t ht⟩
  rw [hps]
  decide +kernel

/-! ## Reserved names -/

theorem Classification.SameLists.fragments {k l : Classification} (h : k.SameLists l)
    (stream : Stream) : k.fragments stream = l.fragments stream := by
  obtain ⟨hs, -, hd⟩ := h
  funext r
  cases r <;>
    simp only [Classification.fragments, Classification.refreshed, Classification.pipelineNames, hs,
      hd]

theorem Emission.render_congr {e e' : Emission} (h : e.buffer = e'.buffer) :
    e.render = e'.render := by
  funext r
  cases r with
  | static => exact congrArg (Text.join _) (congrFun h .static)
  | registration | initialization | pipeline | diagnostics =>
    exact congrArg (Text.join _) (congrFun h _)

/-- The regions depend on the declarations, the marker and the stream. -/
theorem ParamBlock.render_generate {s t : Settings} (hm : t.marker = s.marker)
    (hs : t.stream = s.stream) (b : ParamBlock) :
    (b.generate t).emission.render = (b.generate s).emission.render := by
  refine Emission.render_congr (funext fun r => ?_)
  refine ((buffer_emit _ _ _ r).trans ?_).trans (buffer_emit _ _ _ r).symm
  rw [hs]
  exact congrFun ((classify_sameLists s {} b.parameters hm {}).fragments s.stream) r

/-- **Each declaration goes to one list**, in order, by its own markers: the lists of declarations
behind others are added at the end, and what is reserved or was reported before changes neither them
nor the generated function. -/
theorem classify_splits (s : Settings) (report : Report) (ps : List Parameter) :
    Splits s.marker ps (classify s report ps).static (classify s report ps).staticNames
      (classify s report ps).dynamic ∧
    (∀ qs, classify s report (ps ++ qs) =
      (classify s report ps).andThen
        (classify s (Classifying.addAll s { report } ps).report qs)) ∧
    (∀ qs r r', (classify s report (ps ++ qs)).SameLists
      ((classify s r ps).andThen (classify s r' qs))) ∧
    (∀ t r, t.marker = s.marker → (classify t r ps).SameLists (classify s report ps)) ∧
    ∀ (script : Script) (names : List Text),
      (script.generate? { s with extraReserved := names }).map
          (fun g => (g.source, g.emission.render)) =
        (script.generate? s).map fun g => (g.source, g.emission.render) := by
  refine ⟨classify_split s report ps, classify_append s report ps, fun qs r r' => ?_,
    fun t r h => classify_sameLists s report ps h r, fun script names => ?_⟩
  · rw [classify_append]
    exact (classify_sameLists s r ps rfl report).andThen (classify_sameLists s r' qs rfl _)
  · cases hb : script.block with
    | none => simp only [Script.generate?, hb, Option.map_none]
    | some b =>
      have hr := b.render_generate (t := { s with extraReserved := names }) (s := s) rfl rfl
      have hs : (b.generate { s with extraReserved := names }).source = (b.generate s).source :=
        congrArg (assemble s.functionName · b.attributes) hr
      simp only [Script.generate?, hb, Option.map_some, hr, hs]

/-- One declaration of each kind, under settings that share the marker only and with a report that
has something to say of the second. -/
theorem classify_splits_marker :
    let marked : Annotation := { tag := "Dynamic", positional := ["\x7b $x \x7d"] }
    let ps : List Parameter :=
      [{ name := "A", extent := "[int]$A" },
       { name := "B", annotations := [marked, { tag := "string", kind := .typeConstraint }],
         default := some "1", extent := "[Dynamic(\x7b $x \x7d)][string]$B = 1" }]
    let t : Settings := { functionName := "f", stream := .debug, extraReserved := ["B"] }
    let report : Report := Report.warn {} (.reserved "B" "B")
    let k := classify {} {} ps
    k.static = [("[int]$A" : Text)] ∧ k.staticNames = [("A" : Text)] ∧
      k.dynamic = [{ name := "B", condition := " $x ", resolvedType := "string",
                     default := some "1" }] ∧
      t.marker = ({} : Settings).marker ∧ (classify t report ps).SameLists k := by
  intro marked ps t report k
  exact ⟨by decide +kernel, by decide +kernel, by decide +kernel, rfl,
    (classify_splits {} {} ps).2.2.2.1 t report rfl⟩

end CondParam
