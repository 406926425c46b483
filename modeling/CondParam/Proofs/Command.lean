import CondParam.Command
import CondParam.Proofs.Group

/-!
# What a run leaves behind

A run refuses its arguments, says something and ends, or carries out a command (`Invocation.Runs`);
a command stops before its output or delivers it. So a run that ends with a fatal or a usage error
has printed nothing and changed no file, and `--strict` decides about nothing but the exit code
(`Invocation.run_atomic`).
-/

set_option autoImplicit false

namespace CondParam

/-! ## Cases of a run -/

/-- The command line is one of `generate`, with these options and arguments. -/
structure Invocation.Generates (i : Invocation) (p : ParsedArguments) : Prop where
  command : ∃ rest, parseArguments programSpecs false i.arguments =
      .ok { arguments := CommandName.generate.text :: rest } ∧
    parseArguments CommandName.generate.specs true rest = .ok p
  help : p.last? "--help" = none
  paths : p.nulOption? pathOptions = none
  single : p.arguments.length ≤ 1

/-- What a run can come to. -/
inductive Invocation.Runs (i : Invocation) : Outcome → Prop
  | refused (e : UsageError) : i.Runs (i.refuse e)
  | said (t : Text) : i.Runs (i.say t)
  | generated {p : ParsedArguments} : i.Generates p → i.Runs (i.generate p)
  | classified (p : ParsedArguments) : i.Runs (i.classify p)

theorem CommandName.text_eq_of_ofText? {t : Text} {c : CommandName} (h : ofText? t = some c) :
    c.text = t := by
  simpa using List.find?_some h

namespace Invocation

variable {i : Invocation}

theorem runs_command {c : CommandName} {rest : List Text}
    (h : parseArguments programSpecs false i.arguments = .ok { arguments := c.text :: rest }) :
    i.Runs (i.runCommand c rest) := by
  unfold runCommand
  split
  · exact .refused _
  · rename_i p hp
    split
    · exact .said _
    · rename_i hh
      split
      · exact .refused _
      · exact .refused _
      · rename_i hn hd
        have hl : p.arguments.length ≤ 1 := List.drop_eq_nil_iff.1 hd
        cases c with
        | generate => exact .generated ⟨⟨rest, h, hp⟩, by simpa using hh, hn, hl⟩
        | classify => exact .classified p

/-- Options of the program itself are acted on before anything else. -/
theorem runs_withOptions {hints : List Text → List Text} {arguments : List Text}
    {goOn : List Text → Outcome}
    (h : ∀ rest, parseArguments programSpecs false arguments = .ok { arguments := rest } →
      i.Runs (goOn rest)) :
    i.Runs (i.withOptions hints arguments goOn) := by
  unfold withOptions
  split
  · exact .refused _
  · rename_i p hp
    obtain ⟨options, rest⟩ := p
    cases options with
    | cons option options => exact .said _
    | nil => exact h rest hp

/-- **Every run goes one of these ways.** -/
theorem runs_run : i.Runs i.run := by
  refine runs_withOptions fun rest hr => ?_
  cases rest with
  | nil => exact .refused _
  | cons name rest =>
    dsimp only
    split
    · rename_i c hc
      rw [← CommandName.text_eq_of_ofText? hc] at hr
      exact runs_command hr
    · exact runs_withOptions fun left _ => .refused _

theorem Generates.run_eq {p : ParsedArguments} (h : i.Generates p) : i.run = i.generate p := by
  obtain ⟨⟨rest, hr, hp⟩, hh, hn, hl⟩ := h
  have hd : p.arguments.drop 1 = [] := List.drop_eq_nil_iff.2 hl
  have hc : CommandName.ofText? CommandName.generate.text = some .generate := by decide
  simp only [run, withOptions, hr, hc, runCommand, hp, hh, hn, hd]
  rfl

end Invocation

/-! ## Delivery -/

/-- The same effects, however the runs ended. -/
structure Outcome.SameEffects (o o' : Outcome) : Prop where
  stdout : o'.stdout = o.stdout
  stderr : o'.stderr = o.stderr
  files : o'.files = o.files

namespace Outcome

variable {o o' : Outcome} (output : Option PathName) (t : Text)

/-- A text that cannot be delivered crashes the run; otherwise the run ends as it would have. -/
theorem deliver_ending :
    (o.deliver output t).ending = o.ending ∨ ∃ c, (o.deliver output t).ending = .crash c := by
  unfold deliver
  split
  · unfold print
    split
    · exact .inr ⟨_, rfl⟩
    · exact .inl rfl
  · simp only [save]
    split
    · exact .inr ⟨_, rfl⟩
    · exact .inr ⟨_, rfl⟩
    · exact .inl rfl

/-- What a delivery does, it does whatever the ending is to be. -/
theorem SameEffects.deliver (h : o.SameEffects o') :
    (o.deliver output t).SameEffects (o'.deliver output t) := by
  obtain ⟨hs, he, hf⟩ := h
  unfold Outcome.deliver
  split
  · unfold print
    split
    · exact ⟨hs, he, hf⟩
    · exact ⟨rfl, he, hf⟩
  · simp only [save, hf]
    split
    · exact ⟨hs, he, rfl⟩
    · exact ⟨hs, he, rfl⟩
    · exact ⟨hs, he, rfl⟩

end Outcome

/-! ## Fatal ends -/

/-- An outcome that ends with code 2 has printed nothing and left the files alone. -/
def Outcome.Untouched (fs : FileSystem) (o : Outcome) : Prop :=
  o.ending.code = 2 → o.stdout = [] ∧ o.files = fs

theorem Ending.untouched_outcome (e : Ending) (fs : FileSystem) : (e.outcome fs).Untouched fs :=
  fun _ => ⟨rfl, rfl⟩

/-- A run that comes to its output does not end with code 2. -/
theorem Outcome.untouched_deliver {o : Outcome} {code : Nat} (ho : o.ending = .exit code)
    (hc : code ≠ 2) (output : Option PathName) (t : Text) (fs : FileSystem) :
    (o.deliver output t).Untouched fs := by
  intro h
  rcases o.deliver_ending output t with he | ⟨c, he⟩
  · rw [he, ho] at h
    exact absurd h hc
  · rw [he] at h
    cases h

namespace Invocation

variable {i : Invocation} {p : ParsedArguments}

theorem generate_of_error {e : Ending} (h : i.generated p = .error e) :
    i.generate p = e.outcome i.files := by
  rw [generate, h]

theorem exitCode_eq (check strict : Bool) (r : CheckResult) (ds : List Diagnostic) :
    (if !(((if check then some r else none).map (·.errors)).getD []).isEmpty ||
        (strict && !ds.isEmpty) then 1 else 0) =
      if check = true ∧ r.errors ≠ [] ∨ strict = true ∧ ds ≠ [] then 1 else 0 := by
  cases check <;> cases strict <;> simp

/-- A run that comes to its output is to end with code 1 if a check that was asked for found errors,
or if it is strict and there are diagnostics. -/
theorem generate_of_ok {g : Generated} (h : i.generated p = .ok g) :
    ∃ (output : Option PathName) (t stderr : Text), i.generate p = Outcome.deliver output t
      { ending := .exit
          (if p.flag "--check" "--no-check" = true ∧ (i.check g.source).errors ≠ [] ∨
            p.flag "--strict" "--no-strict" = true ∧ g.diagnostics ≠ [] then 1 else 0),
        stderr, files := i.files } := by
  rw [generate, h]
  dsimp only
  rw [exitCode_eq]
  exact ⟨_, _, _, rfl⟩

theorem untouched_generate : (i.generate p).Untouched i.files := by
  cases h : i.generated p with
  | error e =>
    rw [generate_of_error h]
    exact e.untouched_outcome _
  | ok g =>
    obtain ⟨output, t, stderr, hg⟩ := generate_of_ok h
    rw [hg]
    exact Outcome.untouched_deliver rfl (by split <;> decide) output t _

theorem untouched_classify : (i.classify p).Untouched i.files := by
  unfold classify
  split
  · exact Ending.untouched_outcome _ _
  split
  · exact Ending.untouched_outcome _ _
  split
  · exact Ending.untouched_outcome _ _
  · exact Outcome.untouched_deliver rfl (by decide) none _ _

/-- A run that ends with code 2 has printed nothing and changed no file. -/
theorem Runs.untouched {o : Outcome} (h : i.Runs o) : o.Untouched i.files := by
  cases h with
  | refused e => exact Ending.untouched_outcome _ _
  | said t => exact fun h => absurd h (by decide : ¬ (0 : Nat) = 2)
  | generated _ => exact untouched_generate
  | classified _ => exact untouched_classify

end Invocation

/-! ## Strictness -/

/-- The options that say whether diagnostics make a run fail. -/
def strictnessOptions : List Text := ["--strict", "--no-strict"]

namespace ParsedArguments

variable {p p' : ParsedArguments}

/-- The arguments without a word on strictness. -/
def lenient (p : ParsedArguments) : ParsedArguments :=
  { p with options := p.options.filter fun o => o.1 ∉ strictnessOptions }

theorem addOption_lenient {name : Text} (h : name ∈ strictnessOptions) (value : Text) :
    (p.addOption name value).lenient = p.lenient := by
  simp [lenient, addOption, h]

theorem filter_find? {f : Text × Text → Bool} (h : ∀ o, f o = true → o.1 ∉ strictnessOptions)
    (options : List (Text × Text)) :
    (options.filter fun o => o.1 ∉ strictnessOptions).find? f = options.find? f := by
  rw [List.find?_filter]
  congr 1
  funext o
  cases ho : f o with
  | false => simp
  | true => simpa using h o ho

theorem last?_eq (name : Text) :
    p.last? name = (p.options.reverse.find? (·.1 = name)).map (·.2) := by
  unfold last?
  induction p.options.reverse with
  | nil => rfl
  | cons o options ih =>
    obtain ⟨k, v⟩ := o
    by_cases h : k = name
    · subst h
      rw [List.lookup_cons_self, List.find?_cons_of_pos (by simp)]
      rfl
    · have h' : (name == k) = false := beq_false_of_ne (Ne.symm h)
      rw [List.lookup_cons, h', List.find?_cons_of_neg (by simpa using h)]
      exact ih

theorem last?_lenient {name : Text} (h : name ∉ strictnessOptions) :
    p.lenient.last? name = p.last? name := by
  rw [last?_eq, last?_eq, lenient, ← List.filter_reverse, filter_find?]
  rintro o ho
  rwa [of_decide_eq_true ho]

theorem flag_lenient {on off : Text} (hon : on ∉ strictnessOptions)
    (hoff : off ∉ strictnessOptions) : p.lenient.flag on off = p.flag on off := by
  rw [flag, flag, lenient, ← List.filter_reverse, filter_find?]
  intro o ho
  simp only [Bool.or_eq_true, decide_eq_true_eq] at ho
  rcases ho with ho | ho
  · rwa [ho]
  · rwa [ho]

theorem nulOption?_lenient {names : List Text} (h : ∀ n ∈ names, n ∉ strictnessOptions) :
    p.lenient.nulOption? names = p.nulOption? names := by
  have hf (name : Text) :
      (names.contains name && (p.lenient.last? name).any (·.contains (.char '\x00'))) =
        (names.contains name && (p.last? name).any (·.contains (.char '\x00'))) := by
    cases hn : names.contains name with
    | false => rfl
    | true => rw [last?_lenient (h _ (List.contains_iff_mem.1 hn))]
  rw [nulOption?, nulOption?, funext hf, List.find?_map, List.find?_map, lenient, filter_find?]
  intro o ho
  simp only [Function.comp_apply, Bool.and_eq_true, List.contains_iff_mem] at ho
  exact h _ ho.1

end ParsedArguments

namespace Invocation

variable {i : Invocation} {p p' : ParsedArguments}

theorem generated_lenient : i.generated p.lenient = i.generated p := by
  have hs : i.settings p.lenient = i.settings p := by
    simp (disch := decide) only [settings, configFile, ParsedArguments.last?_lenient]
  have hr : i.script p.lenient = i.script p := by
    simp (disch := decide) only [script, ParsedArguments.last?_lenient]
    rfl
  rw [generated, generated, hs, hr]

/-- Only the ending looks at strictness. -/
theorem generate_lenient : (i.generate p).SameEffects (i.generate p.lenient) := by
  unfold generate
  rw [generated_lenient]
  split
  · exact ⟨rfl, rfl, rfl⟩
  · simp (disch := decide) only [ParsedArguments.last?_lenient, ParsedArguments.flag_lenient]
    exact Outcome.SameEffects.deliver _ _ ⟨rfl, rfl, rfl⟩

theorem generate_congr (h : p'.lenient = p.lenient) :
    (i.generate p).SameEffects (i.generate p') := by
  have hp := generate_lenient (i := i) (p := p)
  have hp' := generate_lenient (i := i) (p := p')
  rw [h] at hp'
  exact ⟨hp'.stdout.symm.trans hp.stdout, hp'.stderr.symm.trans hp.stderr,
    hp'.files.symm.trans hp.files⟩

theorem parseArguments_generate (rest : List Text) :
    parseArguments programSpecs false (CommandName.generate.text :: rest) =
      .ok { arguments := CommandName.generate.text :: rest } := rfl

theorem parseArguments_strictness {name : Text} (h : name ∈ strictnessOptions)
    (rest : List Text) :
    parseArguments CommandName.generate.specs true (name :: rest) =
      (parseArguments CommandName.generate.specs true rest).map (·.addOption name []) := by
  simp only [strictnessOptions, List.mem_cons, List.not_mem_nil, or_false] at h
  rcases h with rfl | rfl
  · rfl
  · rfl

/-- A word on strictness in front of the other arguments adds an option and nothing else. -/
theorem Generates.cons {rest : List Text} {name : Text} (h : i.Generates p)
    (hr : i.arguments = CommandName.generate.text :: rest) (hn : name ∈ strictnessOptions) :
    { i with arguments := CommandName.generate.text :: name :: rest }.Generates
      (p.addOption name []) := by
  obtain ⟨⟨rest', hr', hp⟩, hh, hz, hl⟩ := h
  rw [hr, parseArguments_generate] at hr'
  cases hr'
  refine ⟨⟨name :: rest, parseArguments_generate _, ?_⟩, ?_, ?_, hl⟩
  · rw [parseArguments_strictness hn, hp]
    rfl
  · rw [← ParsedArguments.last?_lenient (by decide), ParsedArguments.addOption_lenient hn,
      ParsedArguments.last?_lenient (by decide), hh]
  · rw [← ParsedArguments.nulOption?_lenient (by decide), ParsedArguments.addOption_lenient hn,
      ParsedArguments.nulOption?_lenient (by decide), hz]

/-- **A run is all or nothing, and strictness is about its exit code only.** A run that ends with
code 2 has printed nothing and changed no file. A `generate` run that comes to its output and does
not crash ends with code 1 exactly if a check that was asked for found errors, or it is strict and
there are diagnostics, and with code 0 otherwise. Runs that differ in nothing but what is said of
strictness, as by one more word on it in front, print the same and write the same. -/
theorem run_atomic (i : Invocation) :
    (i.run.ending.code = 2 → i.run.stdout = [] ∧ i.run.files = i.files) ∧
    ∀ p, i.Generates p →
      (∀ g, i.generated p = .ok g → (∀ c, i.run.ending ≠ .crash c) →
        i.run.ending = .exit
          (if p.flag "--check" "--no-check" = true ∧ (i.check g.source).errors ≠ [] ∨
            p.flag "--strict" "--no-strict" = true ∧ g.diagnostics ≠ [] then 1 else 0)) ∧
      (∀ arguments p', { i with arguments }.Generates p' → p'.lenient = p.lenient →
        i.run.SameEffects { i with arguments }.run) ∧
      ∀ rest, i.arguments = CommandName.generate.text :: rest → ∀ name ∈ strictnessOptions,
        i.run.SameEffects
          { i with arguments := CommandName.generate.text :: name :: rest }.run := by
  refine ⟨runs_run.untouched, fun p hp => ?_⟩
  have congr (arguments : List Text) (p' : ParsedArguments)
      (hp' : { i with arguments }.Generates p') (h : p'.lenient = p.lenient) :
      i.run.SameEffects { i with arguments }.run := by
    rw [hp.run_eq, hp'.run_eq]
    exact generate_congr (i := i) h
  refine ⟨fun g hg hc => ?_, congr, fun rest hr name hn => ?_⟩
  · obtain ⟨output, t, stderr, ho⟩ := generate_of_ok hg
    rw [hp.run_eq, ho] at hc ⊢
    rcases Outcome.deliver_ending output t with he | ⟨c, he⟩
    · exact he
    · exact absurd he (hc c)
  · exact congr _ _ (hp.cons hr hn) (ParsedArguments.addOption_lenient hn _)

/-- The name of the parameter is taken, which is worth a diagnostic. A script without a block is
fatal. -/
theorem run_atomic_taken_name :
    let i : Invocation :=
      { files := {}, arguments := ["generate", "--output", "o"], stdin := "param($Debug)" }
    let strict : Invocation := { i with arguments := ["generate", "--strict", "--output", "o"] }
    let empty : Invocation := { i with stdin := [] }
    (i.run.ending = .exit 0 ∧ strict.run.ending = .exit 1 ∧ i.run.SameEffects strict.run) ∧
      empty.run.ending.code = 2 ∧ empty.run.stdout = [] ∧ empty.run.files = {} := by
  intro i strict empty
  let p : ParsedArguments := { options := [("--output", "o")] }
  let p' : ParsedArguments := p.addOption "--strict" []
  let b : ParamBlock := { parameters := [{ name := "Debug", extent := "$Debug" }] }
  have hp : i.Generates p := ⟨⟨_, rfl, rfl⟩, rfl, rfl, by decide⟩
  have hp' : strict.Generates p' := ⟨⟨_, rfl, rfl⟩, rfl, rfl, by decide⟩
  have generated {j : Invocation} {q : ParsedArguments} (hs : j.settings q = .ok {})
      (hr : j.script q = .ok { block := some b }) : j.generated q = .ok (b.generate {}) := by
    rw [Invocation.generated, hs, hr]
    rfl
  have hg : i.generated p = .ok (b.generate {}) :=
    generated (eq_ok_of_toOption (by decide +kernel)) (eq_ok_of_toOption (by decide +kernel))
  have hg' : strict.generated p' = .ok (b.generate {}) :=
    generated (eq_ok_of_toOption (by decide +kernel)) (eq_ok_of_toOption (by decide +kernel))
  have crash {j : Invocation} (h : j.run.ending.remark = []) (c : Crash) :
      j.run.ending ≠ .crash c := fun hc => by rw [hc] at h; cases h
  have he : empty.run.ending.code = 2 := by decide +kernel
  refine ⟨⟨?_, ?_, ?_⟩, he, (run_atomic empty).1 he⟩
  · exact ((run_atomic i).2 p hp).1 _ hg (crash (by decide +kernel))
  · exact (((run_atomic strict).2 p' hp').1 _ hg' (crash (by decide +kernel))).trans
      (by decide +kernel)
  · exact ((run_atomic i).2 p hp).2.2 _ rfl "--strict" (.head _)

end Invocation

end CondParam
