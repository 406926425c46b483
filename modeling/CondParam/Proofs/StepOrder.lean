import CondParam.Proofs.Emission

/-!
# The order of emission steps

A step adds to the parts of an emission that belong to its kind and to no other
(`Step.fragments_of_ne` and the lemmas behind it), and only a dump looks at what other steps have
left: the names so far. Two steps of different kinds can therefore change places (`apply_comm`),
except a dump with a name, and two steps that both note names from the pipeline. In a run, each
region depends on the steps of its own kind alone (`run_byKind`).
-/

set_option autoImplicit false

namespace CondParam

namespace Emission

namespace Step

/-- What a step is about. -/
inductive Kind where
  | registerPipeline
  | static
  | dynamicName
  | registration
  | initialization
  | refresh
  | dump
  deriving DecidableEq, Repr

def kind : Step → Kind
  | registerPipeline _ => .registerPipeline
  | static _ => .static
  | dynamicName _ => .dynamicName
  | registration _ => .registration
  | initialization _ => .initialization
  | refresh _ => .refresh
  | dump _ => .dump

/-- A dump lists the names so far, and a registration may note a name from the pipeline. -/
def Kind.interferes : Kind → Kind → Bool
  | dump, dynamicName | dynamicName, dump => true
  | registerPipeline, registration | registration, registerPipeline => true
  | _, _ => false

end Step

end Emission

/-- The steps that write to a region. -/
def Region.kind : Region → Emission.Step.Kind
  | static => .static
  | registration => .registration
  | initialization => .initialization
  | pipeline => .refresh
  | diagnostics => .dump

namespace Emission

/-! ## What a step leaves alone -/

namespace Step

variable {step : Step}

theorem fragments_of_ne {r : Region} (h : step.kind ≠ r.kind) : step.fragments r = [] := by
  unfold fragments
  split
  case h_5 => rfl
  all_goals exact absurd rfl h

theorem dynamicNames_of_ne (h : step.kind ≠ .dynamicName) : step.dynamicNames = [] := by
  cases step with
  | dynamicName name => exact absurd rfl h
  | _ => rfl

theorem defaults_of_ne (h : step.kind ≠ .initialization) : step.defaults = [] := by
  cases step with
  | initialization c => exact absurd rfl h
  | _ => rfl

theorem warnings_of_ne (h : step.kind ≠ .registration) : step.warnings = [] := by
  cases step with
  | registration c => exact absurd rfl h
  | _ => rfl

theorem pipelineNames_of_ne (h : step.kind ≠ .registerPipeline) (h' : step.kind ≠ .registration) :
    step.pipelineNames = [] := by
  cases step with
  | registerPipeline name => exact absurd rfl h
  | registration c => exact absurd rfl h'
  | _ => rfl

theorem dumped_of_ne (h : step.kind ≠ .dump) (names : List Text) : step.dumped names = [] := by
  cases step with
  | dump stream => exact absurd rfl h
  | _ => rfl

theorem sorted_of_ne (h : step.kind ≠ .dump) (names : List Text) : step.sorted names = [] := by
  cases step with
  | dump stream => exact absurd rfl h
  | _ => rfl

end Step

/-! ## Two steps -/

section
variable {a b : Step}

/-- Of two steps of different kinds, one adds nothing. -/
theorem eq_nil_or_eq_nil {α : Type} (added : Step → List α) {kind : Step.Kind}
    (h : ∀ {step : Step}, step.kind ≠ kind → added step = []) (hk : a.kind ≠ b.kind) :
    added a = [] ∨ added b = [] := by
  by_cases ha : a.kind = kind
  · exact .inr (h fun hb => hk (ha.trans hb.symm))
  · exact .inl (h ha)

theorem append_comm_of_nil {α : Type} {as bs cs : List α} (h : bs = [] ∨ cs = []) :
    as ++ bs ++ cs = as ++ cs ++ bs := by
  rcases h with rfl | rfl <;> simp only [List.append_nil]

theorem foldl_comm_of_nil {α σ : Type} {take : σ → α → σ} {s : σ} {as bs : List α}
    (h : as = [] ∨ bs = []) :
    bs.foldl take (as.foldl take s) = as.foldl take (bs.foldl take s) := by
  rcases h with rfl | rfl <;> rfl

theorem pipelineNames_eq_nil (hk : a.kind ≠ b.kind) (hi : a.kind.interferes b.kind = false) :
    a.pipelineNames = [] ∨ b.pipelineNames = [] := by
  cases a with
  | registerPipeline name =>
    refine .inr (Step.pipelineNames_of_ne hk.symm fun hb => ?_)
    rw [hb] at hi
    cases hi
  | registration c =>
    refine .inr (Step.pipelineNames_of_ne (fun hb => ?_) hk.symm)
    rw [hb] at hi
    cases hi
  | static | dynamicName | initialization | refresh | dump => exact .inl rfl

/-- A dump lists the same names, unless the step before it adds one; other steps list none. -/
theorem listed_append {α : Type} {listed : List Text → List α}
    (hl : b.kind ≠ .dump → ∀ names, listed names = []) (hi : a.kind.interferes b.kind = false)
    (names : List Text) : listed (names ++ a.dynamicNames) = listed names := by
  by_cases hb : b.kind = .dump
  · have ha : a.kind ≠ .dynamicName := by
      intro ha
      rw [ha, hb] at hi
      cases hi
    rw [Step.dynamicNames_of_ne ha, List.append_nil]
  · rw [hl hb, hl hb]

theorem dumped_append (hi : a.kind.interferes b.kind = false) (names : List Text) :
    b.dumped (names ++ a.dynamicNames) = b.dumped names :=
  listed_append Step.dumped_of_ne hi names

theorem sorted_append (hi : a.kind.interferes b.kind = false) (names : List Text) :
    b.sorted (names ++ a.dynamicNames) = b.sorted names :=
  listed_append Step.sorted_of_ne hi names

theorem Step.Kind.interferes_comm (k l : Kind) : k.interferes l = l.interferes k := by
  cases k <;> cases l <;> rfl

/-- **Steps of different kinds can change places**, unless one sees what the other does. -/
theorem apply_comm (e : Emission) (hk : a.kind ≠ b.kind)
    (hi : a.kind.interferes b.kind = false) : (e.apply a).apply b = (e.apply b).apply a := by
  have hi' : b.kind.interferes a.kind = false := by rw [Step.Kind.interferes_comm, hi]
  have hf (r : Region) : a.fragments r = [] ∨ b.fragments r = [] :=
    eq_nil_or_eq_nil (·.fragments r) Step.fragments_of_ne hk
  have hd (names : List Text) : a.dumped names = [] ∨ b.dumped names = [] :=
    eq_nil_or_eq_nil (·.dumped names) (fun h => Step.dumped_of_ne h names) hk
  have hs (names : List Text) : a.sorted names = [] ∨ b.sorted names = [] :=
    eq_nil_or_eq_nil (·.sorted names) (fun h => Step.sorted_of_ne h names) hk
  have hn := eq_nil_or_eq_nil (·.dynamicNames) Step.dynamicNames_of_ne hk
  have hv := eq_nil_or_eq_nil (·.defaults) Step.defaults_of_ne hk
  have hw := eq_nil_or_eq_nil (·.warnings) Step.warnings_of_ne hk
  simp only [apply_eq, dumped_append hi, dumped_append hi', sorted_append hi, sorted_append hi',
    Emission.mk.injEq]
  exact ⟨append_comm_of_nil (hf _), append_comm_of_nil (hf _), append_comm_of_nil (hf _),
    append_comm_of_nil (hf _), append_comm_of_nil (hd _), foldl_comm_of_nil hv,
    append_comm_of_nil hn, foldl_comm_of_nil (pipelineNames_eq_nil hk hi), foldl_comm_of_nil hw,
    append_comm_of_nil (hs _)⟩

end

/-! ## Runs -/

namespace Step

/-- The static text that a step adds. -/
def text? : Step → Option Text
  | static t => some t
  | _ => none

/-- The parameter that a step adds fragments of. -/
def parameter? : Step → Option Conditional
  | registration c | initialization c | refresh c => some c
  | _ => none

end Step

/-- The static texts of steps, in order. -/
def texts (steps : List Step) : List Text :=
  (steps.filter (·.kind = .static)).filterMap (·.text?)

/-- The parameters of the steps of a kind, in order. -/
def parameters (kind : Step.Kind) (steps : List Step) : List Conditional :=
  (steps.filter (·.kind = kind)).filterMap (·.parameter?)

/-- Only the steps of a region's kind count for it. -/
theorem flatMap_fragments (r : Region) (steps : List Step) :
    steps.flatMap (·.fragments r) =
      (steps.filter (·.kind = r.kind)).flatMap (·.fragments r) := by
  induction steps with
  | nil => rfl
  | cons step steps ih =>
    rw [List.flatMap_cons, ih, List.filter_cons]
    by_cases h : step.kind = r.kind
    · rw [if_pos (decide_eq_true h), List.flatMap_cons]
    · rw [if_neg (by simpa using h), Step.fragments_of_ne h, List.nil_append]

/-- What steps of one kind add, each by its argument. -/
theorem flatMap_eq_of_argument {α β : Type} {added : Step → List β} {argument? : Step → Option α}
    {f : α → List β} {steps : List Step}
    (h : ∀ step ∈ steps, ∃ a, argument? step = some a ∧ added step = f a) :
    steps.flatMap added = (steps.filterMap argument?).flatMap f := by
  induction steps with
  | nil => rfl
  | cons step steps ih =>
    obtain ⟨⟨a, ha, hadd⟩, hrest⟩ := List.forall_mem_cons.1 h
    rw [List.flatMap_cons, List.filterMap_cons_some ha, List.flatMap_cons, hadd, ih hrest]

theorem flatMap_static (steps : List Step) :
    steps.flatMap (·.fragments .static) = texts steps := by
  have h : ∀ step ∈ steps.filter (·.kind = .static),
      ∃ t, step.text? = some t ∧ step.fragments .static = [t] := by
    intro step hm
    have hk := of_decide_eq_true (List.mem_filter.1 hm).2
    cases step with
    | static t => exact ⟨t, rfl, rfl⟩
    | _ => cases hk
  rw [flatMap_fragments, Region.kind, flatMap_eq_of_argument h, List.flatMap_singleton']
  rfl

/-- The three regions to which parameters add fragments. -/
theorem flatMap_parameters {r : Region} {f : Conditional → List Text} (steps : List Step)
    (h : ∀ step : Step, step.kind = r.kind →
      ∃ c, step.parameter? = some c ∧ step.fragments r = f c) :
    steps.flatMap (·.fragments r) = (parameters r.kind steps).flatMap f := by
  rw [flatMap_fragments]
  exact flatMap_eq_of_argument fun step hm =>
    h step (of_decide_eq_true (List.mem_filter.1 hm).2)

/-- An emission to which each step has added to the regions of its own kind. -/
structure ByKind (steps : List Step) (e : Emission) : Prop where
  static : e.static = texts steps
  registration : e.registration =
    (parameters .registration steps).flatMap (·.registrationLines)
  initialization : e.initialization =
    (parameters .initialization steps).map (·.initializationLine)
  pipeline : e.pipeline = (parameters .refresh steps).map (·.refreshLine)
  /-- Names that steps note, and names of parameters bound from the pipeline that steps register. -/
  pipelineNames : e.pipelineNames = firsts id (steps.flatMap (·.pipelineNames))
  distinct : e.pipelineNames.Nodup

theorem byKind_run (report : Report) (steps : List Step) :
    (Emission.run { report } steps).ByKind steps := by
  have hb {r : Region} (hr : r ≠ .diagnostics) : (Emission.run { report } steps).buffer r =
      steps.flatMap (·.fragments r) := by
    rw [buffer_run _ _ hr]
    cases r <;> rfl
  have hn : (Emission.run { report } steps).pipelineNames =
      firsts id (steps.flatMap (·.pipelineNames)) := by
    rw [pipelineNames_run]
    exact foldl_appendNew_eq_firsts id (fun a b => beq_iff_eq) _
  constructor
  case static => exact (hb (r := .static) nofun).trans (flatMap_static steps)
  case registration =>
    refine (hb (r := .registration) nofun).trans (flatMap_parameters steps fun step hk => ?_)
    cases step with
    | registration c => exact ⟨c, rfl, rfl⟩
    | _ => cases hk
  case initialization =>
    rw [List.map_eq_flatMap]
    refine (hb (r := .initialization) nofun).trans (flatMap_parameters steps fun step hk => ?_)
    cases step with
    | initialization c => exact ⟨c, rfl, rfl⟩
    | _ => cases hk
  case pipeline =>
    rw [List.map_eq_flatMap]
    refine (hb (r := .pipeline) nofun).trans (flatMap_parameters steps fun step hk => ?_)
    cases step with
    | refresh c => exact ⟨c, rfl, rfl⟩
    | _ => cases hk
  case pipelineNames => exact hn
  case distinct =>
    rw [hn, ← List.map_id (firsts _ _)]
    exact nodup_map_firsts id _

/-- Two neighbours in a run can change places if two steps can. -/
theorem run_swap (e : Emission) (before after : List Step) {a b : Step} (hk : a.kind ≠ b.kind)
    (hi : a.kind.interferes b.kind = false) :
    e.run (before ++ b :: a :: after) = e.run (before ++ a :: b :: after) := by
  rw [run_append, run_append]
  show (((e.run before).apply b).apply a).run after = (((e.run before).apply a).apply b).run after
  rw [apply_comm _ hk hi]

/-- **Steps write to the regions of their own kind**: each region is made of the arguments of these
steps, in order, whatever stands between them, and two neighbours of different kinds can change
places, except a dump and a name, or two steps that note names from the pipeline. -/
theorem run_byKind (report : Report) (steps : List Step) :
    (Emission.run { report } steps).ByKind steps ∧
      ∀ before a b after, steps = before ++ a :: b :: after → a.kind ≠ b.kind →
        a.kind.interferes b.kind = false →
        Emission.run { report } (before ++ b :: a :: after) = Emission.run { report } steps := by
  refine ⟨byKind_run report steps, ?_⟩
  rintro before a b after rfl hk hi
  exact run_swap _ before after hk hi

/-- A registration that notes its name and warns, and the initialization of the same parameter. -/
theorem run_byKind_registration :
    let c : Conditional :=
      { name := "A", condition := [], resolvedType := "Object", default := some "1",
        pipelineAware := true, untyped := true }
    let e := Emission.run {} [.registerPipeline "B", .registration c, .initialization c]
    e.pipelineNames = [("B" : Text), ("A" : Text)] ∧ e.pipelineNames.Nodup ∧
      Step.kind (.registration c) ≠ Step.kind (.initialization c) ∧
      (Step.kind (.registration c)).interferes (Step.kind (.initialization c)) = false ∧
      Emission.run {} [.registerPipeline "B", .initialization c, .registration c] = e := by
  intro c e
  obtain ⟨hkind, hswap⟩ :=
    run_byKind {} [.registerPipeline "B", .registration c, .initialization c]
  refine ⟨?_, hkind.distinct, nofun, rfl, hswap [_] _ _ [] rfl nofun rfl⟩
  rw [hkind.pipelineNames]
  decide

end Emission

end CondParam
