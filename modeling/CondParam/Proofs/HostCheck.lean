import CondParam.Proofs.Command
import CondParam.Proofs.Names

/-!
# The host's check is heard of

A check has a host (`exists_isHost`), or it is skipped. With a host, the result is good if and only
if the call was completed with status 0, and a result that is not good has errors to show
(`HostOutcome.result_reports`). The command line looks at the errors alone
(`Invocation.code_generate`), so this is what makes a run with a failed check fail.
-/

set_option autoImplicit false

namespace CondParam

/-! ## The host -/

/-- The host of a check: the given program, or else what is found for the first candidate for which
anything is. An empty path is nothing. -/
inductive IsHost (which : Text → Option Text) : Option Text → Text → Prop
  | given {program : Text} : program ≠ [] → IsHost which (some program) program
  | found {executable : Option Text} {before after : List Text} {candidate program : Text} :
      (∀ path ∈ executable, path = []) → hostCandidates = before ++ candidate :: after →
      (∀ c ∈ before, ∀ path ∈ which c, path = []) → which candidate = some program →
      program ≠ [] → IsHost which executable program

/-- No program is given, and none is found. -/
def NoHost (which : Text → Option Text) (executable : Option Text) : Prop :=
  (∀ path ∈ executable, path = []) ∧ ∀ c ∈ hostCandidates, ∀ path ∈ which c, path = []

section
variable {which : Text → Option Text} {executable : Option Text} {source : Text}

theorem filter_isEmpty_eq_none_iff {o : Option Text} :
    o.filter (!·.isEmpty) = none ↔ ∀ path ∈ o, path = [] := by
  simp [Option.filter_eq_none_iff]

theorem filter_isEmpty_eq_some_iff {o : Option Text} {path : Text} :
    o.filter (!·.isEmpty) = some path ↔ o = some path ∧ path ≠ [] := by
  simp [Option.filter_eq_some_iff]

/-- Where nothing is found, every candidate is asked for. -/
theorem searchHost_of_absent {candidates : List Text}
    (h : ∀ c ∈ candidates, ∀ path ∈ which c, path = []) :
    searchHost which candidates = { asked := candidates } := by
  induction candidates with
  | nil => rfl
  | cons c cs ih =>
    obtain ⟨hc, hcs⟩ := List.forall_mem_cons.1 h
    rw [searchHost, filter_isEmpty_eq_none_iff.2 hc, ih hcs]

/-- The search stops at the first candidate that is found. -/
theorem searchHost_of_found {before after : List Text} {candidate program : Text}
    (hb : ∀ c ∈ before, ∀ path ∈ which c, path = [])
    (hw : which candidate = some program) (hp : program ≠ []) :
    searchHost which (before ++ candidate :: after) =
      { found := some program, asked := before ++ [candidate] } := by
  induction before with
  | nil => rw [List.nil_append, searchHost, filter_isEmpty_eq_some_iff.2 ⟨hw, hp⟩, List.nil_append]
  | cons c cs ih =>
    obtain ⟨hc, hcs⟩ := List.forall_mem_cons.1 hb
    rw [List.cons_append, searchHost, filter_isEmpty_eq_none_iff.2 hc, ih hcs, List.cons_append]

theorem IsHost.chooseHost {program : Text} (h : IsHost which executable program) :
    (chooseHost which executable).found = some program := by
  cases h with
  | given hp => rw [CondParam.chooseHost, filter_isEmpty_eq_some_iff.2 ⟨rfl, hp⟩]
  | found he hc hb hw hp =>
    rw [CondParam.chooseHost, filter_isEmpty_eq_none_iff.2 he, hc, searchHost_of_found hb hw hp]

theorem IsHost.hostCall? {program : Text} (h : IsHost which executable program) :
    hostCall? which executable source = some ⟨program, source⟩ := by
  rw [CondParam.hostCall?, h.chooseHost, Option.map_some]

theorem NoHost.hostCall? (h : NoHost which executable) :
    hostCall? which executable source = none := by
  rw [CondParam.hostCall?, chooseHost, filter_isEmpty_eq_none_iff.2 h.1, searchHost_of_absent h.2,
    Option.map_none]

/-- Among candidates of which one is found, there is a first. -/
theorem exists_first_found {candidates : List Text}
    (h : ¬ ∀ c ∈ candidates, ∀ path ∈ which c, path = []) :
    ∃ before candidate after program, candidates = before ++ candidate :: after ∧
      (∀ c ∈ before, ∀ path ∈ which c, path = []) ∧
      which candidate = some program ∧ program ≠ [] := by
  induction candidates with
  | nil => exact absurd (by simp) h
  | cons c cs ih =>
    by_cases hc : ∀ path ∈ which c, path = []
    · obtain ⟨before, candidate, after, program, rfl, hb, hw⟩ :=
        ih fun hcs => h (List.forall_mem_cons.2 ⟨hc, hcs⟩)
      exact ⟨c :: before, candidate, after, program, rfl, List.forall_mem_cons.2 ⟨hc, hb⟩, hw⟩
    · obtain ⟨program, hw, hp⟩ : ∃ path ∈ which c, path ≠ [] := by simpa using hc
      exact ⟨[], c, cs, program, rfl, by simp, hw, hp⟩

/-- A check has a host or none. -/
theorem exists_isHost (h : ¬ NoHost which executable) :
    ∃ program, IsHost which executable program := by
  by_cases he : ∀ path ∈ executable, path = []
  · obtain ⟨_, _, _, program, hc, hb, hw, hp⟩ := exists_first_found fun hn => h ⟨he, hn⟩
    exact ⟨program, .found he hc hb hw hp⟩
  · cases executable with
    | none => exact absurd nofun he
    | some program => exact ⟨program, .given fun hp => he (by rintro _ ⟨⟩; exact hp)⟩

end

/-! ## Results -/

/-- What a result says about the call it comes from. -/
structure CheckResult.Reports (r : CheckResult) (o : HostOutcome) : Prop where
  notSkipped : r.skipped = false
  ok_iff : r.ok = true ↔ ∃ stdout stderr, o = .completed 0 stdout stderr
  heard : r.ok = false → r.errors ≠ []
  nonblank : ∀ e ∈ r.errors, e.isBlank = false

/-- What the host prints, line by line without blanks. -/
theorem isBlank_of_mem_printed {t e : Text}
    (h : e ∈ (t.lines.map Text.strip).filter fun line => !line.isEmpty) : e.isBlank = false := by
  obtain ⟨hm, hne⟩ := List.mem_filter.1 h
  obtain ⟨line, -, rfl⟩ := List.mem_map.1 hm
  exact Text.isBlank_strip (by simpa using hne)

/-- **A result with a host is good or has errors.** -/
theorem HostOutcome.result_reports (program : Text) (o : HostOutcome) :
    (o.result program).Reports o := by
  cases o with
  | failed message =>
    refine ⟨rfl, ⟨nofun, nofun⟩, fun _ => List.cons_ne_nil _ _, fun e he => ?_⟩
    obtain rfl := List.mem_singleton.1 he
    exact Text.isBlank_eq_false (c := .char 'f') (.head _) rfl
  | completed status stdout stderr =>
    refine ⟨rfl, by simp [result], fun hok => ?_, fun e he => ?_⟩
    · have hs : status ≠ 0 := by simpa [result] using hok
      simp only [result]
      split
      · split <;> exact List.cons_ne_nil _ _
      · rename_i hp
        exact fun he => hp ⟨hs, he⟩
    · simp only [result] at he
      split at he
      · split at he
        · obtain rfl := List.mem_singleton.1 he
          exact Text.isBlank_eq_false (c := .char 'x') (by simp [Text.ofChars]) rfl
        · rename_i hc
          obtain rfl := List.mem_singleton.1 he
          exact Text.isBlank_strip (by simpa using hc)
      · exact isBlank_of_mem_printed he

section
variable {which : Text → Option Text} {run : HostCall → HostOutcome} {executable : Option Text}
  {source : Text}

theorem NoHost.checkSource (h : NoHost which executable) :
    checkSource which run executable source = .skip := by
  rw [CondParam.checkSource, h.hostCall?]

theorem IsHost.reports {program : Text} (h : IsHost which executable program) :
    (checkSource which run executable source).Reports (run ⟨program, source⟩) := by
  rw [checkSource, h.hostCall?]
  exact (run ⟨program, source⟩).result_reports program

end

/-! ## Runs -/

theorem Outcome.stderr_deliver (o : Outcome) (output : Option PathName) (t : Text) :
    (o.deliver output t).stderr = o.stderr := by
  unfold deliver
  split
  · unfold print
    split <;> rfl
  · simp only [save]
    split <;> rfl

namespace Invocation

variable {i : Invocation} {p : ParsedArguments} {g : Generated}

/-- Every error of a check that was asked for is printed. -/
theorem stderr_generate (h : i.generated p = .ok g) (hc : p.flag "--check" "--no-check" = true) :
    (i.generate p).stderr =
      remarked (g.diagnostics.map (·.render) ++ (i.check g.source).lines) := by
  rw [generate, h]
  simp only [hc, if_true, Option.map_some, Option.getD_some]
  exact Outcome.stderr_deliver _ _ _

/-- A run with errors from the check ends with code 1, whether its output can be written or not. -/
theorem code_generate (h : i.generated p = .ok g) (hc : p.flag "--check" "--no-check" = true)
    (he : (i.check g.source).errors ≠ []) : (i.generate p).ending.code = 1 := by
  obtain ⟨output, t, stderr, hg⟩ := generate_of_ok h
  rw [if_pos (.inl ⟨hc, he⟩)] at hg
  rw [hg]
  rcases Outcome.deliver_ending output t with hd | ⟨c, hd⟩
  · rw [hd]
    rfl
  · rw [hd]
    rfl

end Invocation

theorem CheckResult.mem_lines {r : CheckResult} {e : Text} (h : e ∈ r.errors) :
    .concat ["syntax error: ", e] ∈ r.lines :=
  List.mem_append_right _ (List.mem_map_of_mem h)

/-- **A failed check is never silent.** A check is skipped if and only if no program is given and
none is found. Otherwise the result says whether the call was completed with status 0, and has an
error if it was not. So a run that asks for a check which fails ends with code 1, whether its output
can be written or not, and prints what is wrong. -/
theorem failed_check_heard (which : Text → Option Text) (run : HostCall → HostOutcome) :
    (∀ executable source,
      let r := checkSource which run executable source
      (r.skipped = true ∧ r.ok = true ∧ r.errors = [] ↔ NoHost which executable) ∧
      (¬ NoHost which executable → ∃ program, IsHost which executable program ∧
        r.Reports (run ⟨program, source⟩))) ∧
    ∀ (i : Invocation) (p : ParsedArguments) (g : Generated) (program : Text),
      i.check = checkSource which run none → i.Generates p →
      p.flag "--check" "--no-check" = true → i.generated p = .ok g → IsHost which none program →
      (¬ ∃ stdout stderr, run ⟨program, g.source⟩ = .completed 0 stdout stderr) →
      i.run.ending.code = 1 ∧ ∃ remarks e, i.run.stderr = remarked remarks ∧
        e.isBlank = false ∧ .concat ["syntax error: ", e] ∈ remarks := by
  refine ⟨fun executable source => ⟨⟨fun ⟨hs, _⟩ => ?_, fun h => ?_⟩, fun h => ?_⟩,
    fun i p g program hi hp hc hg hh hr => ?_⟩
  · by_contra h
    obtain ⟨program, hh⟩ := exists_isHost h
    rw [hh.reports.notSkipped] at hs
    cases hs
  · rw [h.checkSource]
    exact ⟨rfl, rfl, rfl⟩
  · obtain ⟨program, hh⟩ := exists_isHost h
    exact ⟨program, hh, hh.reports⟩
  · have hrep : (i.check g.source).Reports (run ⟨program, g.source⟩) := hi ▸ hh.reports
    have hne : (i.check g.source).errors ≠ [] :=
      hrep.heard (Bool.not_eq_true _ ▸ mt hrep.ok_iff.1 hr)
    obtain ⟨e, es, he⟩ := List.exists_cons_of_ne_nil hne
    have hm : e ∈ (i.check g.source).errors := by rw [he]; exact .head _
    rw [hp.run_eq]
    exact ⟨i.code_generate hg hc hne, _, e, i.stderr_generate hg hc, hrep.nonblank e hm,
      List.mem_append_right _ (CheckResult.mem_lines hm)⟩

/-- The second candidate is the host, and fails without a word. -/
theorem failed_check_heard_blank :
    let which (c : Text) : Option Text := if c = "pwsh" then some [] else some "/ps"
    let run (_ : HostCall) : HostOutcome := .completed 3 (some " \r\n\x0b") (some "\n")
    let i : Invocation :=
      { files := {}, arguments := ["generate", "--check"], stdin := "param($A)",
        check := checkSource which run none }
    ¬ NoHost which none ∧
      checkSource which run none "x" =
        { ok := false, executable := some "/ps", errors := ["/ps exited with status 3"] } ∧
      IsHost which none "/ps" ∧ i.run.ending.code = 1 := by
  intro which run i
  let p : ParsedArguments := { options := [("--check", [])] }
  let b : ParamBlock := { parameters := [{ name := "A", extent := "$A" }] }
  have hp : i.Generates p := ⟨⟨_, rfl, rfl⟩, rfl, rfl, by decide⟩
  have hs : i.settings p = .ok {} := eq_ok_of_toOption (by decide +kernel)
  have hr : i.script p = .ok { block := some b } := eq_ok_of_toOption (by decide +kernel)
  have hg : i.generated p = .ok (b.generate {}) := by
    rw [Invocation.generated, hs, hr]
    rfl
  have hc : hostCandidates = [("pwsh" : Text)] ++ [("powershell" : Text)] := rfl
  have hh : IsHost which none "/ps" := .found (by simp) hc (by decide) rfl (by decide)
  have hn : ¬ NoHost which none := fun h =>
    absurd (h.2 "powershell" (by decide) "/ps" rfl) (by decide)
  have hf : ¬ ∃ stdout stderr,
      run ⟨"/ps", (b.generate {}).source⟩ = .completed 0 stdout stderr := by
    rintro ⟨stdout, stderr, h⟩
    cases h
  obtain ⟨-, hrun⟩ := failed_check_heard which run
  exact ⟨hn, by decide +kernel, hh, (hrun i p _ "/ps" rfl hp rfl hg hh hf).1⟩

end CondParam
