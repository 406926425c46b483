import CondParam.Emission
import CondParam.Proofs.Report

/-!
# What emission writes

A step adds to each part of an emission something that only the step determines (`apply_eq`); the
dump, which lists all names so far, is the one exception. The two passes of `emit` are one run of
steps that only the classification determines (`emit_eq_run`), so each region is a concatenation of
the fragments of its parameters (`buffer_emit`, `emit_holds`).
-/

set_option autoImplicit false

namespace CondParam

/-! ## Defaults -/

theorem lookup_entry (key name : Text) (value : Option Text) (entries : List (Text × Option Text)) :
    ((name, value) :: entries).lookup key =
      if name = key then some value else entries.lookup key := by
  rw [List.lookup_cons]
  by_cases h : name = key
  · rw [if_pos h, h, beq_self_eq_true]
  · rw [if_neg h, beq_eq_false_iff_ne.2 (Ne.symm h)]

theorem lookup_setDefault (key name : Text) (value : Option Text)
    (entries : List (Text × Option Text)) :
    (setDefault name value entries).lookup key =
      if name = key then some value else entries.lookup key := by
  induction entries with
  | nil => exact lookup_entry key name value []
  | cons entry entries ih =>
    obtain ⟨k, v⟩ := entry
    rw [setDefault, lookup_entry key k v]
    by_cases hk : k = name
    · rw [if_pos hk, lookup_entry, hk]
      split <;> rfl
    · rw [if_neg hk, lookup_entry, ih]
      by_cases hkey : name = key
      · rw [if_pos hkey, if_pos hkey, if_neg fun h => hk (h.trans hkey.symm)]
      · rw [if_neg hkey, if_neg hkey]

/-- A default that was just noted is read back. -/
theorem lookup_setDefault_self (name : Text) (value : Option Text)
    (entries : List (Text × Option Text)) :
    (setDefault name value entries).lookup name = some value := by
  rw [lookup_setDefault, if_pos rfl]

namespace Conditional

/-- What the variable is set to without a bound value. -/
def fallback (c : Conditional) : Text := fallbackOf c.default

/-- The line that sets the parameter's variable. -/
def initializationLine (c : Conditional) : Text := c.assignmentLine c.default

end Conditional

/-! ## Steps -/

namespace Emission

namespace Step

/-- What a step adds to a region; what a dump adds depends on the names so far. -/
def fragments : Step → Region → List Text
  | static t, .static => [t]
  | registration c, .registration => c.registrationLines
  | initialization c, .initialization => [c.initializationLine]
  | refresh c, .pipeline => [c.refreshLine]
  | _, _ => []

/-- What a step adds to the dump when the names so far are `names`. -/
def dumped (names : List Text) : Step → List Text
  | dump stream => if names.isEmpty then [] else dumpLines stream (sortBy Text.le id false names)
  | _ => []

/-- The sorts of a step when the names so far are `names`. -/
def sorted (names : List Text) : Step → List SortEvent
  | dump _ => if names.isEmpty then [] else [sortEvent Text.le dumpSource id false names]
  | _ => []

def dynamicNames : Step → List Text
  | dynamicName name => [name]
  | _ => []

def pipelineNames : Step → List Text
  | registerPipeline name => [name]
  | registration c => if c.pipelineAware then [c.name] else []
  | _ => []

def defaults : Step → List (Text × Option Text)
  | initialization c => [(c.name, c.default)]
  | _ => []

def warnings : Step → List Diagnostic
  | registration c => if c.untyped then [.untyped c.name] else []
  | _ => []

end Step

/-- The entries with some of them set, in order. -/
def setDefaults (entries new : List (Text × Option Text)) : List (Text × Option Text) :=
  new.foldl (fun entries d => setDefault d.1 d.2 entries) entries

/-- A name is new unless it was noted before, and then it is added. -/
theorem registerPipeline_eq (name : Text) (e : Emission) :
    e.registerPipeline name = (!e.pipelineNames.contains name,
      { e with pipelineNames := appendNew (· == ·) e.pipelineNames name }) := by
  have hc : e.pipelineNames.contains name = e.pipelineNames.any (name == ·) :=
    List.contains_eq_any_beq
  rw [registerPipeline, appendNew, hc]
  cases e.pipelineNames.any (name == ·) <;> rfl

theorem addInitialization_eq (c : Conditional) (e : Emission) :
    e.addInitialization c =
      { e with
        defaults := setDefault c.name c.default e.defaults
        initialization := e.initialization ++ [c.initializationLine] } := by
  rw [addInitialization, lookup_setDefault_self]
  rfl

/-- **What a step does.** -/
theorem apply_eq (e : Emission) (step : Step) :
    e.apply step =
      { static := e.static ++ step.fragments .static
        registration := e.registration ++ step.fragments .registration
        initialization := e.initialization ++ step.fragments .initialization
        pipeline := e.pipeline ++ step.fragments .pipeline
        diagnostics := e.diagnostics ++ step.dumped e.dynamicNames
        defaults := setDefaults e.defaults step.defaults
        dynamicNames := e.dynamicNames ++ step.dynamicNames
        pipelineNames := step.pipelineNames.foldl (appendNew (· == ·)) e.pipelineNames
        report := e.report.extend step.warnings
        sorts := e.sorts ++ step.sorted e.dynamicNames } := by
  cases step with
  | registration c =>
    simp only [apply, addRegistration, registerPipeline_eq, Step.fragments, Step.dumped,
      Step.sorted, Step.defaults, Step.dynamicNames, Step.pipelineNames, Step.warnings,
      List.append_nil]
    cases c.pipelineAware <;> cases c.untyped <;> rfl
  | registerPipeline name =>
    simp only [apply, registerPipeline_eq, Step.fragments, Step.dumped, Step.sorted,
      Step.dynamicNames, List.append_nil]
    rfl
  | dump stream =>
    simp only [apply, addDump, Step.fragments, Step.dumped, Step.sorted, Step.dynamicNames,
      List.append_nil]
    cases e.dynamicNames.isEmpty with
    | true => simp only [if_true, List.append_nil]; rfl
    | false => rfl
  | static t | dynamicName name | initialization c | refresh c =>
    simp only [apply, addStatic, addDynamicName, addInitialization_eq, addRefresh, Step.fragments,
      Step.dumped, Step.sorted, Step.dynamicNames, List.append_nil]
    rfl

/-! ## Runs -/

theorem run_append (e : Emission) (steps steps' : List Step) :
    e.run (steps ++ steps') = (e.run steps).run steps' :=
  List.foldl_append

section
variable {α : Type} {added : Step → List α}

/-- A part to which each step adds at the end. -/
theorem run_eq_append (part : Emission → List α)
    (h : ∀ e step, part (e.apply step) = part e ++ added step) (e : Emission) (steps : List Step) :
    part (e.run steps) = part e ++ steps.flatMap added := by
  induction steps generalizing e with
  | nil => exact (List.append_nil _).symm
  | cons step steps ih =>
    have hr : e.run (step :: steps) = (e.apply step).run steps := rfl
    rw [hr, ih, h, List.append_assoc, List.flatMap_cons]

/-- A part that takes in what each step adds. -/
theorem run_eq_foldl {σ : Type} (part : Emission → σ) {take : σ → α → σ}
    (h : ∀ e step, part (e.apply step) = (added step).foldl take (part e)) (e : Emission)
    (steps : List Step) : part (e.run steps) = (steps.flatMap added).foldl take (part e) := by
  rw [List.foldl_flatMap]
  exact (List.foldl_hom part fun e step => (h e step).symm).symm

end

section
variable (e : Emission) (steps : List Step)

/-- **A region after a run**: what the steps added, in order. -/
theorem buffer_run {r : Region} (hr : r ≠ .diagnostics) :
    (e.run steps).buffer r = e.buffer r ++ steps.flatMap (·.fragments r) := by
  refine run_eq_append (·.buffer r) (fun e step => ?_) e steps
  rw [apply_eq]
  cases r with
  | diagnostics => exact absurd rfl hr
  | _ => rfl

theorem dynamicNames_run :
    (e.run steps).dynamicNames = e.dynamicNames ++ steps.flatMap (·.dynamicNames) :=
  run_eq_append (·.dynamicNames) (fun e step => by rw [apply_eq]) e steps

theorem pipelineNames_run :
    (e.run steps).pipelineNames =
      (steps.flatMap (·.pipelineNames)).foldl (appendNew (· == ·)) e.pipelineNames :=
  run_eq_foldl (·.pipelineNames) (fun e step => by rw [apply_eq]) e steps

theorem defaults_run :
    (e.run steps).defaults = setDefaults e.defaults (steps.flatMap (·.defaults)) :=
  run_eq_foldl (·.defaults) (fun e step => by rw [apply_eq]; rfl) e steps

theorem report_run : (e.run steps).report = e.report.extend (steps.flatMap (·.warnings)) :=
  run_eq_foldl (·.report) (fun e step => by rw [apply_eq]; rfl) e steps

/-- A part that only a dump changes. -/
theorem run_eq_of_no_dump {σ : Type} (part : Emission → σ)
    (hp : ∀ e step, (∀ stream, step ≠ .dump stream) → part (e.apply step) = part e)
    (h : ∀ stream, .dump stream ∉ steps) : part (e.run steps) = part e := by
  induction steps generalizing e with
  | nil => rfl
  | cons step steps ih =>
    have hs : part (e.apply step) = part e :=
      hp e step fun stream he => h stream (he ▸ List.mem_cons_self)
    have hr : e.run (step :: steps) = (e.apply step).run steps := rfl
    rw [hr, ih _ fun stream hm => h stream (List.mem_cons_of_mem _ hm), hs]

/-- Only a dump writes to the dump. -/
theorem diagnostics_run (h : ∀ stream, .dump stream ∉ steps) :
    (e.run steps).diagnostics = e.diagnostics := by
  refine run_eq_of_no_dump e steps (·.diagnostics) (fun e step hs => ?_) h
  rw [apply_eq]
  cases step with
  | dump stream => exact absurd rfl (hs stream)
  | _ => exact List.append_nil _

/-- Only a dump sorts. -/
theorem sorts_run (h : ∀ stream, .dump stream ∉ steps) : (e.run steps).sorts = e.sorts := by
  refine run_eq_of_no_dump e steps (·.sorts) (fun e step hs => ?_) h
  rw [apply_eq]
  cases step with
  | dump stream => exact absurd rfl (hs stream)
  | _ => exact List.append_nil _

end

end Emission

/-! ## One run -/

theorem flatMap_ite {α β : Type} (p : α → Bool) (f : α → β) (as : List α) :
    (as.flatMap fun a => if p a then [f a] else []) = (as.filter p).map f := by
  induction as with
  | nil => rfl
  | cons a as ih =>
    rw [List.flatMap_cons, ih, List.filter_cons]
    split <;> rfl

theorem flatMap_nothing {α β : Type} (as : List α) : (as.flatMap fun _ => ([] : List β)) = [] :=
  List.flatMap_eq_nil_iff.2 fun _ _ => rfl

namespace Classification

/-- The names of the parameters bound from the pipeline. -/
def pipelineNames (k : Classification) : List Text :=
  (k.dynamic.filter (·.pipelineAware)).map (·.name)

/-- The parameters that are refreshed: those that share their name with one bound from the
pipeline. -/
def refreshed (k : Classification) : List Conditional :=
  k.dynamic.filter fun c => k.pipelineNames.contains c.name

/-- What the parameters put into each region. -/
def fragments (stream : Stream) (k : Classification) : Region → List Text
  | .static => k.static
  | .registration => k.dynamic.flatMap (·.registrationLines)
  | .initialization => k.dynamic.map (·.initializationLine)
  | .pipeline => k.refreshed.map (·.refreshLine)
  | .diagnostics =>
    if k.dynamic.isEmpty then []
    else dumpLines stream (sortBy Text.le id false (k.dynamic.map (·.name)))

/-- The steps that declare the parameters. -/
def declarationSteps (k : Classification) : List Emission.Step :=
  k.static.map .static ++ k.dynamic.flatMap (·.steps)

/-- All steps of an emission. -/
def steps (stream : Stream) (k : Classification) : List Emission.Step :=
  k.declarationSteps ++ (k.refreshed.map .refresh ++ [.dump stream])

section
variable {α : Type} (added : Emission.Step → List α) (k : Classification)

theorem flatMap_declarationSteps :
    k.declarationSteps.flatMap added =
      k.static.flatMap (fun t => added (.static t)) ++
        k.dynamic.flatMap fun c => added (.dynamicName c.name) ++
          (added (.registration c) ++ added (.initialization c)) := by
  simp only [declarationSteps, Conditional.steps, List.flatMap_append, List.flatMap_map,
    List.flatMap_assoc, List.flatMap_cons, List.flatMap_nil, List.append_nil]

theorem flatMap_steps (stream : Stream) :
    (k.steps stream).flatMap added = k.declarationSteps.flatMap added ++
      (k.refreshed.flatMap (fun c => added (.refresh c)) ++ added (.dump stream)) := by
  simp only [steps, List.flatMap_append, List.flatMap_map, List.flatMap_singleton]

end

theorem flatMap_pipelineNames (k : Classification) :
    k.declarationSteps.flatMap (·.pipelineNames) = k.pipelineNames := by
  rw [flatMap_declarationSteps]
  simp [Emission.Step.pipelineNames, pipelineNames, flatMap_ite, flatMap_nothing]

theorem pipelineNames_declared (report : Report) (k : Classification) :
    (Emission.run { report } k.declarationSteps).pipelineNames = k.pipelineNames.eraseDups := by
  rw [Emission.pipelineNames_run, flatMap_pipelineNames]
  exact foldl_appendNew_nil _ _

end Classification

/-- **Emission is one run** of steps that the classification determines. -/
theorem emit_eq_run (stream : Stream) (report : Report) (k : Classification) :
    emit stream report k = Emission.run { report } (k.steps stream) := by
  have hf : (k.dynamic.filter fun c => k.pipelineNames.eraseDups.contains c.name) =
      k.refreshed := by
    refine List.filter_congr fun c _ => Bool.eq_iff_iff.2 ?_
    rw [List.contains_iff_mem, List.contains_iff_mem, List.mem_eraseDups]
  rw [emit]
  -- The second pass asks the names that the first has left behind.
  have hn := k.pipelineNames_declared report
  unfold Classification.declarationSteps at hn
  simp only [hn, hf]
  rw [← Emission.run_append]
  rfl

section
variable (stream : Stream) (report : Report) (k : Classification)

theorem dynamicNames_emit : (emit stream report k).dynamicNames = k.dynamic.map (·.name) := by
  rw [emit_eq_run, Emission.dynamicNames_run, k.flatMap_steps, k.flatMap_declarationSteps]
  simp [Emission.Step.dynamicNames, flatMap_nothing, List.map_eq_flatMap]

/-- The last step is the dump, the only one that writes to the dump and sorts. -/
theorem exists_emit_eq_dump : ∃ e : Emission, emit stream report k = e.apply (.dump stream) ∧
    e.dynamicNames = k.dynamic.map (·.name) ∧ e.diagnostics = [] ∧ e.sorts = [] := by
  have hd (stream : Stream) : .dump stream ∉ k.declarationSteps ++ k.refreshed.map .refresh := by
    simp [Classification.declarationSteps, Conditional.steps]
  refine ⟨Emission.run { report } (k.declarationSteps ++ k.refreshed.map .refresh), ?_, ?_,
    Emission.diagnostics_run _ _ hd, Emission.sorts_run _ _ hd⟩
  · rw [emit_eq_run, Classification.steps, ← List.append_assoc, Emission.run_append]
    rfl
  · rw [← dynamicNames_emit stream report k, emit_eq_run, Classification.steps, ← List.append_assoc,
      Emission.run_append _ _ [_], Emission.dynamicNames_run _ [_]]
    exact (List.append_nil _).symm

theorem diagnostics_emit :
    (emit stream report k).diagnostics = k.fragments stream .diagnostics := by
  obtain ⟨e, he, hn, hd, -⟩ := exists_emit_eq_dump stream report k
  rw [he, Emission.apply_eq]
  simp only [hd, hn, List.nil_append, Emission.Step.dumped, Classification.fragments,
    List.isEmpty_map]

/-- **Emission sorts once**, if there are names at all. -/
theorem sorts_emit :
    (emit stream report k).sorts =
      if k.dynamic.isEmpty then []
      else [sortEvent Text.le dumpSource id false (k.dynamic.map (·.name))] := by
  obtain ⟨e, he, hn, -, hs⟩ := exists_emit_eq_dump stream report k
  rw [he, Emission.apply_eq]
  simp only [hs, hn, List.nil_append, Emission.Step.sorted, List.isEmpty_map]

/-- **Each region holds the fragments of the parameters**, in order. -/
theorem buffer_emit (r : Region) : (emit stream report k).buffer r = k.fragments stream r := by
  by_cases hr : r = .diagnostics
  · subst hr
    exact diagnostics_emit stream report k
  · rw [emit_eq_run, Emission.buffer_run _ _ hr, k.flatMap_steps, k.flatMap_declarationSteps]
    cases r with
    | diagnostics => exact absurd rfl hr
    | static | registration | initialization | pipeline =>
      simp [Emission.buffer, Emission.Step.fragments, Classification.fragments, flatMap_nothing,
        List.map_eq_flatMap]

theorem static_emit : (emit stream report k).static = k.static :=
  buffer_emit stream report k .static

theorem pipelineNames_emit :
    (emit stream report k).pipelineNames = k.pipelineNames.eraseDups := by
  rw [emit_eq_run, Emission.pipelineNames_run, k.flatMap_steps, k.flatMap_pipelineNames]
  simp only [Emission.Step.pipelineNames, flatMap_nothing, List.append_nil]
  exact foldl_appendNew_nil _ _

theorem defaults_emit :
    (emit stream report k).defaults =
      Emission.setDefaults [] (k.dynamic.map fun c => (c.name, c.default)) := by
  rw [emit_eq_run, Emission.defaults_run, k.flatMap_steps, k.flatMap_declarationSteps]
  simp [Emission.Step.defaults, flatMap_nothing, List.map_eq_flatMap]

theorem report_emit :
    (emit stream report k).report =
      report.extend ((k.dynamic.filter (·.untyped)).map fun c => .untyped c.name) := by
  rw [emit_eq_run, Emission.report_run, k.flatMap_steps, k.flatMap_declarationSteps]
  simp [Emission.Step.warnings, flatMap_nothing, flatMap_ite]

end

/-! ## Defaults -/

theorem keys_setDefault (name : Text) (value : Option Text) (entries : List (Text × Option Text)) :
    (setDefault name value entries).map (·.1) = appendNew (· == ·) (entries.map (·.1)) name := by
  induction entries with
  | nil => rfl
  | cons entry entries ih =>
    obtain ⟨k, v⟩ := entry
    by_cases hk : k = name
    · simp [setDefault, appendNew, hk]
    · have hb : (name == k) = false := beq_eq_false_iff_ne.2 (Ne.symm hk)
      rw [setDefault, if_neg hk, List.map_cons, ih, List.map_cons, appendNew, appendNew,
        List.any_cons, hb, Bool.false_or]
      split <;> rfl

theorem keys_setDefaults (entries new : List (Text × Option Text)) :
    (Emission.setDefaults entries new).map (·.1) =
      (new.map (·.1)).foldl (appendNew (· == ·)) (entries.map (·.1)) := by
  rw [List.foldl_map]
  exact (List.foldl_hom _ fun entries d => (keys_setDefault d.1 d.2 entries).symm).symm

/-- The last parameter of a name sets its default. -/
theorem lookup_setDefaults (key : Text) (cs : List Conditional)
    (entries : List (Text × Option Text)) :
    (Emission.setDefaults entries (cs.map fun c => (c.name, c.default))).lookup key =
      ((cs.reverse.find? (·.name = key)).map (·.default)).or (entries.lookup key) := by
  induction cs generalizing entries with
  | nil => rfl
  | cons c cs ih =>
    have hs : Emission.setDefaults entries ((c :: cs).map fun c => (c.name, c.default)) =
        Emission.setDefaults (setDefault c.name c.default entries)
          (cs.map fun c => (c.name, c.default)) := rfl
    rw [hs, ih, lookup_setDefault, List.reverse_cons, List.find?_append, Option.map_or,
      Option.or_assoc]
    by_cases hk : c.name = key <;> simp [hk]

/-! ## The guard -/

namespace Conditional

/-- The line that opens the guard of a condition. -/
def guardLine (c : Conditional) : Text := .concat [bodyIndent, "if (", c.condition, ") \x7b"]

/-- The line that closes a guard. -/
def guardEnd : Text := .concat [bodyIndent, "\x7d"]

theorem guardOpening_eq (c : Conditional) :
    c.guardOpening = if c.condition = [] then [] else [c.guardLine] := by
  simp only [guardOpening, alwaysPresent, List.isEmpty_iff]
  rfl

theorem guardClosing_eq (c : Conditional) :
    c.guardClosing = if c.condition = [] then [] else [guardEnd] := by
  simp only [guardClosing, alwaysPresent, List.isEmpty_iff]
  rfl

/-- Code lines are indented and start with a variable. -/
def IsCode (indent line : Text) : Prop := ∃ code, line = indent ++ .char '$' :: code

theorem isCode_lines {indent line : Text} {a : Annotation} (h : line ∈ a.lines indent) :
    IsCode indent line := by
  simp only [List.cons_append, Annotation.lines, List.mem_cons, List.mem_append, List.mem_map,
    List.not_mem_nil, or_false] at h
  rcases h with rfl | ⟨n, -, rfl⟩ | rfl
  · exact ⟨_, rfl⟩
  · exact ⟨_, rfl⟩
  · exact ⟨_, rfl⟩

theorem isCode_registrationBody {c : Conditional} {line : Text} (h : line ∈ c.registrationBody) :
    IsCode c.innerIndent line := by
  simp only [registrationBody, List.mem_append, List.mem_flatMap, List.mem_cons, List.not_mem_nil,
    or_false] at h
  rcases h with ((rfl | ⟨a, -, ha⟩) | hi) | (rfl | rfl)
  · exact ⟨_, rfl⟩
  · exact isCode_lines ha
  · unfold impliedAttributeLines at hi
    split at hi
    · cases hi
    · simp only [List.mem_cons, List.not_mem_nil, or_false] at hi
      rcases hi with rfl | rfl <;> exact ⟨_, rfl⟩
  · exact ⟨_, rfl⟩
  · exact ⟨_, rfl⟩

/-- Code is none of the lines around it. -/
theorem IsCode.ne {c : Conditional} {line : Text} (h : IsCode c.innerIndent line) {d : CodePoint}
    (hd : d ≠ .char '$') (hs : d ≠ .char ' ') (s : Text) : line ≠ bodyIndent ++ d :: s := by
  obtain ⟨code, rfl⟩ := h
  unfold innerIndent
  split
  · intro he
    exact hd (List.cons.inj (List.append_cancel_left he)).1.symm
  · intro he
    rw [List.append_assoc] at he
    exact hs (List.cons.inj (List.append_cancel_left he)).1.symm

/-- Of the lines at the outer indentation, only those of the guard are neither code nor comments. -/
theorem mem_registrationLines (c : Conditional) {line s : Text} {d : CodePoint}
    (hl : line = bodyIndent ++ d :: s) (hd : d ≠ .char '$') (hs : d ≠ .char ' ')
    (hc : d ≠ .char '#') :
    line ∈ c.registrationLines ↔ c.condition ≠ [] ∧ (line = c.guardLine ∨ line = guardEnd) := by
  have hcomment (t : Text) : line ≠ bodyIndent ++ .char '#' :: t := fun he =>
    hc (List.cons.inj (List.append_cancel_left (hl.symm.trans he))).1
  have hfirst : line ≠ .concat [bodyIndent, "#region ", c.name] := hcomment _
  have hlast : line ≠ .concat [bodyIndent, "#endregion ", c.name] := hcomment _
  have hbody : line ∉ c.registrationBody := fun hm => (isCode_registrationBody hm).ne hd hs s hl
  simp only [registrationLines, List.mem_append, List.mem_singleton, hfirst, hlast, hbody,
    guardOpening_eq, guardClosing_eq, or_false, false_or]
  by_cases h : c.condition = []
  · simp only [h, if_true, List.not_mem_nil, or_false, ne_eq, not_true, false_and]
  · simp only [h, if_false, List.mem_singleton, ne_eq, not_false_eq_true, true_and]

/-- The registration of a parameter is a region of its own, and it is guarded exactly if there is a
condition. -/
structure Registered (c : Conditional) (block : List Text) : Prop where
  first : block.head? = some (.concat [bodyIndent, "#region ", c.name])
  last : block.getLast? = some (.concat [bodyIndent, "#endregion ", c.name])
  opening : c.guardLine ∈ block ↔ c.condition ≠ []
  closing : guardEnd ∈ block ↔ c.condition ≠ []
  guarded : c.condition ≠ [] → ∃ body,
    block = [.concat [bodyIndent, "#region ", c.name], c.guardLine] ++ body ++
      [guardEnd, .concat [bodyIndent, "#endregion ", c.name]]

theorem registered (c : Conditional) : c.Registered c.registrationLines where
  first := rfl
  last := List.getLast?_concat
  opening := by
    have hl : c.guardLine = bodyIndent ++ .char 'i' ::
        Text.concat ["f (", c.condition, ") \x7b"] := rfl
    rw [c.mem_registrationLines hl (by decide) (by decide) (by decide)]
    exact and_iff_left (.inl rfl)
  closing := by
    have hl : guardEnd = bodyIndent ++ .char '\x7d' :: [] := rfl
    rw [c.mem_registrationLines hl (by decide) (by decide) (by decide)]
    exact and_iff_left (.inr rfl)
  guarded h := by
    refine ⟨c.registrationBody, ?_⟩
    rw [registrationLines, guardOpening_eq, guardClosing_eq, if_neg h, if_neg h]
    simp only [List.append_assoc]
    rfl

end Conditional

/-! ## Emission -/

theorem Conditional.fallback_eq (c : Conditional) :
    c.fallback = (c.default.filter (· ≠ [])).getD "$null" := by
  rw [fallback]
  cases c.default with
  | none => rfl
  | some d => cases d <;> rfl

theorem Classification.refreshed_eq (k : Classification) :
    k.refreshed =
      k.dynamic.filter fun c => ∃ b ∈ k.dynamic, b.pipelineAware = true ∧ b.name = c.name := by
  refine List.filter_congr fun c _ => Bool.eq_iff_iff.2 ?_
  simp [pipelineNames, and_assoc]

/-- What an emission holds of a classification. -/
structure Emission.Holds (stream : Stream) (k : Classification) (e : Emission) : Prop where
  static : e.static = k.static
  dynamicNames : e.dynamicNames = k.dynamic.map (·.name)
  registration : e.registration = k.dynamic.flatMap (·.registrationLines)
  registered : ∀ c ∈ k.dynamic, c.Registered c.registrationLines
  initialization : e.initialization = k.dynamic.map fun c =>
    .concat [bodyIndent, "if (", boundTest c.name, ") \x7b ", variableRef c.name, " = ",
      boundLookup c.name, " \x7d", " else \x7b ", variableRef c.name, " = ",
      (c.default.filter (· ≠ [])).getD "$null", " \x7d"]
  pipeline : e.pipeline =
    (k.dynamic.filter fun c => ∃ b ∈ k.dynamic, b.pipelineAware = true ∧ b.name = c.name).map
      fun c => .concat [bodyIndent, "if (", boundTest c.name, ") \x7b ", variableRef c.name, " = ",
        boundLookup c.name, " \x7d"]
  pipelineNames : e.pipelineNames = ((k.dynamic.filter (·.pipelineAware)).map (·.name)).eraseDups
  diagnostics : e.diagnostics =
    if k.dynamic = [] then []
    else dumpLines stream (sortBy Text.le id false (k.dynamic.map (·.name)))
  /-- The last parameter of a name gives its default. -/
  default : ∀ name, e.defaults.lookup name =
    (k.dynamic.reverse.find? (·.name = name)).map (·.default)
  defaultNames : e.defaults.map (·.1) = (k.dynamic.map (·.name)).eraseDups

/-- **Every region holds the fragments of its parameters**, in order, and nothing else. -/
theorem emit_holds (stream : Stream) (report : Report) (k : Classification) :
    (emit stream report k).Holds stream k where
  static := static_emit stream report k
  dynamicNames := dynamicNames_emit stream report k
  registration := buffer_emit stream report k .registration
  registered c _ := c.registered
  initialization := by
    refine (buffer_emit stream report k .initialization).trans (List.map_congr_left fun c _ => ?_)
    have hd : fallbackOf c.default = _ := c.fallback_eq
    simp only [Conditional.initializationLine, Conditional.assignmentLine, Conditional.refreshLine,
      hd, Text.concat_cons, List.append_assoc, Text.concat_nil, List.nil_append]
  pipeline := by
    rw [← k.refreshed_eq]
    exact buffer_emit stream report k .pipeline
  pipelineNames := pipelineNames_emit stream report k
  diagnostics := by
    refine (buffer_emit stream report k .diagnostics).trans ?_
    simp only [Classification.fragments, List.isEmpty_iff]
  default name := by
    rw [defaults_emit, lookup_setDefaults]
    exact Option.or_none
  defaultNames := by
    rw [defaults_emit, keys_setDefaults, List.map_map]
    exact foldl_appendNew_nil _ _

end CondParam
