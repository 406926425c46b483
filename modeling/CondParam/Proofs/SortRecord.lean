import CondParam.Proofs.Classification

/-!
# Who hears of a sort

Steps open and close scopes and sort. `openScopes` says which scopes steps leave open, and
`sortsWithin` which sorts a scope was the innermost open one for, both from the steps alone. What
the scopes hold after steps is exactly that (`run?_eq_recorded`): the step lemma is
`next?_recorded`, and it rests on the open scopes being told apart by the steps that opened them
(`openScopes_sorted`). Generation sorts once, if there is anything to sort.
-/

set_option autoImplicit false

namespace CondParam

/-! ## Histories -/

namespace SortStep

/-- What a step sorts. -/
def call? : SortStep → Option SortCall
  | sort c => some c
  | _ => none

def isLeave : SortStep → Bool
  | leave => true
  | _ => false

/-- The open scopes after step number `n`. -/
def openAfter (scopes : List Nat) (n : Nat) : SortStep → List Nat
  | enter => n :: scopes
  | leave => scopes.tail
  | sort _ => scopes

end SortStep

/-- The scopes that steps leave open, the innermost first, each by the number of the step that
opened it. -/
def openScopes (steps : List SortStep) : List Nat :=
  steps.zipIdx.foldl (fun scopes p => p.1.openAfter scopes p.2) []

/-- The sorts for which a scope was the innermost open one, in order. -/
def sortsWithin (scope : Nat) (steps : List SortStep) : List SortCall :=
  steps.zipIdx.filterMap fun p =>
    if (openScopes (steps.take p.2)).head? = some scope then p.1.call? else none

/-- Each step that closes a scope finds one open. -/
def WellNested (steps : List SortStep) : Prop :=
  ∀ before after, steps = before ++ .leave :: after → openScopes before ≠ []

/-- What the scopes hold after steps. -/
def recorded (steps : List SortStep) : SortScopes :=
  ⟨(openScopes steps).map fun scope => (sortsWithin scope steps).map (·.event)⟩

section
variable (steps : List SortStep) (step : SortStep)

theorem openScopes_concat :
    openScopes (steps ++ [step]) = step.openAfter (openScopes steps) steps.length := by
  simp [openScopes, List.zipIdx_append]

theorem sortsWithin_concat (scope : Nat) :
    sortsWithin scope (steps ++ [step]) = sortsWithin scope steps ++
      if (openScopes steps).head? = some scope then step.call?.toList else [] := by
  rw [sortsWithin, List.zipIdx_append, List.filterMap_append]
  congr 1
  · refine List.filterMap_congr fun p hp => ?_
    have hl : p.2 ≤ steps.length := Nat.le_of_lt (List.snd_lt_of_mem_zipIdx hp)
    rw [List.take_append_of_le_length hl]
  · rw [List.zipIdx_singleton, List.filterMap_cons, Nat.zero_add, List.take_left,
      List.filterMap_nil]
    by_cases h : (openScopes steps).head? = some scope
    · cases step <;> simp [h, SortStep.call?]
    · simp [h]

theorem sortsWithin_concat_of_call {step : SortStep} (h : step.call? = none) (scope : Nat) :
    sortsWithin scope (steps ++ [step]) = sortsWithin scope steps := by
  simp [sortsWithin_concat, h]

/-- The open scopes were opened by the steps so far, the inner ones later. -/
theorem openScopes_sorted :
    (∀ scope ∈ openScopes steps, scope < steps.length) ∧
      (openScopes steps).Pairwise (· > ·) := by
  induction steps using List.reverseRecOn with
  | nil => exact ⟨by simp [openScopes], .nil⟩
  | append_singleton steps step ih =>
    obtain ⟨hlt, hp⟩ := ih
    rw [openScopes_concat, List.length_append, List.length_singleton]
    cases step with
    | enter =>
      refine ⟨List.forall_mem_cons.2 ⟨Nat.lt_succ_self _, fun scope hs => ?_⟩, .cons hlt hp⟩
      exact Nat.lt_succ_of_lt (hlt scope hs)
    | leave =>
      exact ⟨fun scope hs => Nat.lt_succ_of_lt (hlt scope (List.mem_of_mem_tail hs)), hp.tail⟩
    | sort c => exact ⟨fun scope hs => Nat.lt_succ_of_lt (hlt scope hs), hp⟩

/-- Nothing was sorted in a scope before it was opened. -/
theorem sortsWithin_of_le {scope : Nat} (h : steps.length ≤ scope) :
    sortsWithin scope steps = [] := by
  refine List.filterMap_eq_nil_iff.2 fun p hp => if_neg fun hs => ?_
  have hlt := (openScopes_sorted (steps.take p.2)).1 scope (List.mem_of_head? hs)
  rw [List.length_take] at hlt
  omega

end

/-! ## Steps and runs -/

/-- What is recorded of a sort. -/
theorem SortCall.event_eq (c : SortCall) :
    c.event.source = c.source ∧ c.event.count = c.items.length ∧
      (c.event.alreadySorted = true ↔ c.result = c.items) :=
  letI := c.itemEq
  ⟨rfl, rfl, decide_eq_true_iff⟩

/-- **What one step records.** -/
theorem next?_recorded {steps : List SortStep} {step : SortStep}
    (h : step = .leave → openScopes steps ≠ []) :
    (recorded steps).next? step = some (recorded (steps ++ [step])) := by
  have ho := openScopes_concat steps step
  cases step with
  | enter =>
    have hs (scope : Nat) : sortsWithin scope (steps ++ [.enter]) = sortsWithin scope steps :=
      sortsWithin_concat_of_call steps rfl scope
    simp [recorded, ho, hs, SortScopes.next?, SortScopes.enter, SortStep.openAfter,
      sortsWithin_of_le steps (Nat.le_refl _)]
  | leave =>
    have hs (scope : Nat) : sortsWithin scope (steps ++ [.leave]) = sortsWithin scope steps :=
      sortsWithin_concat_of_call steps rfl scope
    obtain ⟨scope, outer, he⟩ := List.exists_cons_of_ne_nil (h rfl)
    simp [recorded, ho, hs, he, SortScopes.next?, SortScopes.leave?, SortStep.openAfter]
  | sort c =>
    have hs := sortsWithin_concat steps (.sort c)
    cases he : openScopes steps with
    | nil =>
      simp [recorded, ho, he, SortScopes.next?, SortCall.perform, SortScopes.record,
        SortStep.openAfter]
    | cons scope outer =>
      -- The new event goes to the innermost scope; the others are older than it.
      have hother : ∀ other ∈ outer, sortsWithin other (steps ++ [.sort c]) =
          sortsWithin other steps := by
        intro other hm
        have hp := (openScopes_sorted steps).2
        rw [he] at hp
        have hne : scope ≠ other := Nat.ne_of_gt (List.rel_of_pairwise_cons hp hm)
        simp [hs, he, hne]
      have hown : sortsWithin scope (steps ++ [.sort c]) = sortsWithin scope steps ++ [c] := by
        simp [hs, he, SortStep.call?]
      have hmap := List.map_congr_left fun other hm =>
        congrArg (List.map SortCall.event) (hother other hm)
      simp only [recorded, ho, he, SortStep.openAfter, List.map_cons, hown, hmap, List.map_append,
        List.map_nil]
      rfl

theorem wellNested_iff {steps : List SortStep} :
    WellNested steps ↔ ∀ n < steps.length,
      steps[n]?.any SortStep.isLeave = true → openScopes (steps.take n) ≠ [] := by
  constructor
  · intro h n hn hl
    rw [List.getElem?_eq_getElem hn] at hl
    refine h _ (steps.drop (n + 1)) ?_
    have he : steps[n] = .leave := by
      cases hs : steps[n] with
      | leave => rfl
      | enter => simp [hs, SortStep.isLeave] at hl
      | sort c => simp [hs, SortStep.isLeave] at hl
    rw [← he, List.getElem_cons_drop, List.take_append_drop]
  · rintro h before after rfl
    simpa using h before.length (by simp) (by simp [SortStep.isLeave])

instance (steps : List SortStep) : Decidable (WellNested steps) :=
  decidable_of_iff _ wellNested_iff.symm

theorem WellNested.of_append {steps steps' : List SortStep} (h : WellNested (steps ++ steps')) :
    WellNested steps := by
  intro before after he
  exact h before (after ++ steps') (by rw [he, List.append_assoc, List.cons_append])

/-- **What a run records.** -/
theorem run?_eq_recorded {steps : List SortStep} (h : WellNested steps) :
    SortScopes.run? {} steps = some (recorded steps) := by
  induction steps using List.reverseRecOn with
  | nil => rfl
  | append_singleton steps step ih =>
    have hstep : step = .leave → openScopes steps ≠ [] := fun he => h steps [] (by rw [he])
    have hrun : SortScopes.run? {} (steps ++ [step]) =
        (SortScopes.run? {} steps).bind (·.next? step) := by
      simp [SortScopes.run?, List.foldlM_append]
    rw [hrun, ih h.of_append]
    exact next?_recorded hstep

/-- **What is handed out when a scope is closed**: the sorts for which it was the innermost one. -/
theorem leave?_recorded {steps : List SortStep} {scope : Nat} {outer : List Nat}
    (h : openScopes steps = scope :: outer) :
    (recorded steps).leave? =
      some ((sortsWithin scope steps).map (·.event), recorded (steps ++ [.leave])) := by
  have hopen : openScopes steps ≠ [] := by simp [h]
  have hn : (recorded steps).next? .leave = some (recorded (steps ++ [.leave])) :=
    next?_recorded fun _ => hopen
  obtain ⟨⟨events, rest⟩, hl, hr⟩ := Option.map_eq_some_iff.1 hn
  have he : (sortsWithin scope steps).map (·.event) = events := by
    rw [recorded, SortScopes.leave?, h] at hl
    exact congrArg Prod.fst (Option.some.inj hl)
  rw [hl, he, ← hr]

/-- A sort outside all scopes leaves no trace. -/
theorem perform_of_openScopes_eq_nil {steps : List SortStep} (h : openScopes steps = [])
    (c : SortCall) : (c.perform (recorded steps)).2 = recorded steps := by
  rw [recorded, h]
  rfl

/-! ## Generation -/

theorem recordAll_cons (es inner : List SortEvent) (outer : List (List SortEvent)) :
    SortScopes.recordAll es ⟨inner :: outer⟩ = ⟨(inner ++ es) :: outer⟩ := by
  induction es generalizing inner with
  | nil => rw [List.append_nil]; rfl
  | cons e es ih => exact (ih (inner ++ [e])).trans (by rw [List.append_assoc]; rfl)

/-- How many declarations of a script are conditional. -/
def Script.conditionalCount (s : Settings) (script : Script) : Nat :=
  script.block.elim 0 fun b => b.parameters.countP (·.isConditional s.marker)

theorem ParamBlock.length_dynamic (s : Settings) (b : ParamBlock) :
    (b.classify s).dynamic.length = b.parameters.countP (·.isConditional s.marker) := by
  simp [classify, classify_eq, List.countP_eq_length_filter]

/-- **Generation sorts once**, if there is anything to sort. -/
theorem Script.sorts_generate? (s : Settings) (script : Script) :
    (((script.generate? s).map (·.emission.sorts)).getD []).map (fun e => (e.source, e.count)) =
      if script.conditionalCount s = 0 then []
      else [(dumpSource, script.conditionalCount s)] := by
  unfold generate? conditionalCount
  cases script.block with
  | none => rfl
  | some b =>
    have hs : (b.generate s).emission.sorts = _ := sorts_emit s.stream _ (b.classify s)
    simp only [Option.map_some, Option.getD_some, Option.elim_some, hs, ← b.length_dynamic s]
    cases (b.classify s).dynamic with
    | nil => rfl
    | cons c cs => simp [sortEvent]

/-- A scope around generation hears of its sorts alone. -/
theorem Script.leave?_generateOnRecord (s : Settings) (script : Script) (scopes : SortScopes) :
    (script.generateOnRecord s scopes.enter).2.leave? =
      some (((script.generate? s).map (·.emission.sorts)).getD [], scopes) := by
  unfold generateOnRecord
  cases script.generate? s with
  | none => rfl
  | some g => exact congrArg SortScopes.leave? (recordAll_cons g.emission.sorts [] scopes.events)

theorem Script.length_dynamic_generate? (s : Settings) (script : Script) (g : Generated)
    (h : script.generate? s = some g) : g.dynamic.length = script.conditionalCount s := by
  obtain ⟨b, hb, rfl⟩ := Option.map_eq_some_iff.1 h
  rw [conditionalCount, hb]
  exact b.length_dynamic s

/-- **Sorts are heard of in the innermost scope, and nowhere else.** A scope that is closed hands
out the events of the sorts for which it was the innermost open one; a sort outside all scopes
leaves no trace; no result depends on the scopes. Generation sorts once, all its conditional
parameters, if it has any. -/
theorem sort_record_scoped {steps : List SortStep} (h : WellNested steps) :
    SortScopes.run? {} steps = some (recorded steps) ∧
    (∀ before after, steps = before ++ .leave :: after →
      ∃ s scope outer, SortScopes.run? {} before = some s ∧ openScopes before = scope :: outer ∧
        s.leave? = some ((sortsWithin scope before).map (·.event), recorded (before ++ [.leave])) ∧
        SortScopes.run? {} (before ++ [.leave]) = some (recorded (before ++ [.leave]))) ∧
    (∀ c : SortCall, c.event.source = c.source ∧ c.event.count = c.items.length ∧
      (c.event.alreadySorted = true ↔ c.result = c.items)) ∧
    (∀ before c after, steps = before ++ .sort c :: after →
      ∃ s, SortScopes.run? {} before = some s ∧
        SortScopes.run? {} (before ++ [.sort c]) = some (c.perform s).2 ∧
        (openScopes before = [] → (c.perform s).2 = s)) ∧
    (∀ (c : SortCall) (s : SortScopes), (c.perform s).1 = sortBy c.le c.key c.reverse c.items) ∧
    ∀ (s : Settings) (script : Script) (scopes : SortScopes),
      (script.generateOnRecord s scopes).1 = script.generate? s ∧
      (∀ g, script.generate? s = some g → g.dynamic.length = script.conditionalCount s) ∧
      ∃ events, (script.generateOnRecord s scopes.enter).2.leave? = some (events, scopes) ∧
        events.map (fun e => (e.source, e.count)) =
          if script.conditionalCount s = 0 then []
          else [(dumpSource, script.conditionalCount s)] := by
  have hrun {before after : List SortStep} (he : steps = before ++ after) :
      SortScopes.run? {} before = some (recorded before) :=
    run?_eq_recorded (WellNested.of_append (he ▸ h))
  refine ⟨run?_eq_recorded h, fun before after he => ?_, SortCall.event_eq,
    fun before c after he => ?_, fun _ _ => rfl, fun s script scopes =>
      ⟨?_, script.length_dynamic_generate? s, _, script.leave?_generateOnRecord s scopes,
        script.sorts_generate? s⟩⟩
  · obtain ⟨scope, outer, ho⟩ := List.exists_cons_of_ne_nil (h before after he)
    refine ⟨_, scope, outer, hrun he, ho, leave?_recorded ho, ?_⟩
    exact hrun (he.trans (List.append_cons ..))
  · refine ⟨_, hrun he, ?_, fun ho => perform_of_openScopes_eq_nil ho c⟩
    rw [hrun (he.trans (List.append_cons ..))]
    have hn : (recorded before).next? (.sort c) = some (recorded (before ++ [.sort c])) :=
      next?_recorded nofun
    exact hn.symm
  · unfold Script.generateOnRecord
    cases script.generate? s <;> rfl

/-- A scope with a sort before and one behind another scope hears of these two, and not of those in
the other scope and outside. -/
theorem sort_record_scoped_nested :
    let sort (source : Text) (items : List Nat) : SortStep :=
      .sort ⟨Nat, Nat, Nat.ble, source, id, false, items⟩
    let before := [sort "a" [3], .enter, sort "b" [2, 1], .enter, sort "c" [], .leave,
      sort "d" [1, 2]]
    let heard : List (Text × Nat) := [("b", 2), ("d", 2)]
    WellNested (before ++ [.leave, sort "e" [4]]) ∧
      ∃ s events rest, SortScopes.run? {} before = some s ∧ s.leave? = some (events, rest) ∧
        events.map (fun e => (e.source, e.count)) = heard := by
  intro sort before heard
  have h : WellNested (before ++ [.leave, sort "e" [4]]) := by decide +kernel
  obtain ⟨-, hleave, -⟩ := sort_record_scoped h
  obtain ⟨s, scope, outer, hs, ho, hl, -⟩ := hleave before [sort "e" [4]] rfl
  have he : openScopes before = [1] := by decide +kernel
  obtain rfl : 1 = scope := (List.cons.inj (he.symm.trans ho)).1
  exact ⟨h, s, _, _, hs, hl, by decide +kernel⟩

end CondParam
