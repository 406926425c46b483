import CondParam.Diagnostic
import Mathlib.Data.List.Induction
import Mathlib.Data.List.Nodup

/-!
# The report

A report keeps the first diagnostic of each code for a parameter, and what it has stays: saying
again what was said changes nothing (`Report.extend_of_has`). It asks the keys that it has seen and
not its entries; the two stay in step through every run (`Report.InStep.run`), so the entries grow
by what is new in them (`Report.InStep.entries_extend`), as other lists do (`foldl_appendNew`,
`foldl_appendNew_eq_firsts`). Whatever steps are taken on a report, it is a log of the first of each
(`Report.run_isLog`).
-/

set_option autoImplicit false

namespace CondParam

/-! ## Lists that grow by what is new -/

section
variable {α : Type} (same : α → α → Bool)

/-- Adds an element at the end, unless the list has the same already. -/
def appendNew (as : List α) (a : α) : List α := if as.any (same a) then as else as ++ [a]

/-- Of the added elements that are new, the first of each kind stays. -/
theorem foldl_appendNew (as bs : List α) :
    bs.foldl (appendNew same) as =
      as ++ (bs.filter fun b => !as.any (same b)).eraseDupsBy same := by
  induction bs generalizing as with
  | nil => simp [List.eraseDupsBy_nil]
  | cons b bs ih =>
    rw [List.foldl_cons, ih]
    by_cases h : as.any (same b) = true
    · rw [appendNew, if_pos h, List.filter_cons_of_neg (by simp [h])]
    · -- What is the same as `b` is dropped from the rest, by either side.
      have hs : (bs.filter fun x => !(as ++ [b]).any (same x)) =
          (bs.filter fun x => !as.any (same x)).filter fun x => same x b = false := by
        rw [List.filter_filter]
        refine List.filter_congr fun x _ => ?_
        rw [List.any_append, List.any_cons, List.any_nil, Bool.or_false, Bool.not_or, Bool.and_comm,
          Bool.decide_eq_false]
      rw [appendNew, if_neg h, hs, List.filter_cons_of_pos (by simp [h]), List.eraseDupsBy_cons,
        List.append_assoc, List.singleton_append]

theorem foldl_appendNew_nil (bs : List α) :
    bs.foldl (appendNew same) [] = bs.eraseDupsBy same := by
  have hf : (bs.filter fun b => !([] : List α).any (same b)) = bs :=
    List.filter_eq_self.2 fun _ _ => rfl
  rw [foldl_appendNew, hf, List.nil_append]

end

section
variable {α κ : Type} [DecidableEq κ] (key : α → κ)

/-- The elements whose keys do not stand earlier in the list. -/
def firsts (as : List α) : List α :=
  (as.zipIdx.filter fun e => key e.1 ∉ (as.take e.2).map key).map (·.1)

theorem firsts_concat (as : List α) (a : α) :
    firsts key (as ++ [a]) = firsts key as ++ if key a ∈ as.map key then [] else [a] := by
  -- What stands before an element of `as` is the same with `a` at the end.
  have hold : (as.zipIdx.filter fun e => key e.1 ∉ ((as ++ [a]).take e.2).map key) =
      as.zipIdx.filter fun e => key e.1 ∉ (as.take e.2).map key := by
    refine List.filter_congr fun e he => ?_
    have hi := (List.mem_zipIdx he).2.1
    rw [List.take_append_of_le_length (by omega)]
  have hnew : (as ++ [a]).take (0 + as.length) = as := by
    rw [Nat.zero_add, List.take_left]
  unfold firsts
  rw [List.zipIdx_append, List.filter_append, List.map_append, hold, List.zipIdx_singleton,
    List.filter_singleton]
  simp only [hnew]
  by_cases h : key a ∈ as.map key
  · simp [h]
  · simp [h]

/-- No key is lost. -/
theorem mem_map_firsts {k : κ} (as : List α) : k ∈ (firsts key as).map key ↔ k ∈ as.map key := by
  induction as using List.reverseRecOn with
  | nil => rfl
  | append_singleton as a ih =>
    rw [firsts_concat, List.map_append, List.mem_append, ih, List.map_append, List.mem_append,
      List.map_singleton, List.mem_singleton]
    by_cases h : key a ∈ as.map key
    · rw [if_pos h]
      constructor
      · intro hk
        exact .inl (hk.resolve_right List.not_mem_nil)
      · rintro (hk | rfl)
        · exact .inl hk
        · exact .inl h
    · rw [if_neg h, List.map_singleton, List.mem_singleton]

/-- No key is left twice. -/
theorem nodup_map_firsts (as : List α) : ((firsts key as).map key).Nodup := by
  induction as using List.reverseRecOn with
  | nil => exact List.nodup_nil
  | append_singleton as a ih =>
    rw [firsts_concat]
    by_cases h : key a ∈ as.map key
    · rwa [if_pos h, List.append_nil]
    · rw [if_neg h, List.map_append, List.map_singleton, ← List.concat_eq_append,
        List.nodup_concat, mem_map_firsts]
      exact ⟨h, ih⟩

/-- A list that grows by what is new in it holds the first of each key. -/
theorem foldl_appendNew_eq_firsts {same : α → α → Bool}
    (h : ∀ a b, same a b = true ↔ key a = key b) (as : List α) :
    as.foldl (appendNew same) [] = firsts key as := by
  induction as using List.reverseRecOn with
  | nil => rfl
  | append_singleton as a ih =>
    have hs : (firsts key as).any (same a) = true ↔ key a ∈ as.map key := by
      rw [← mem_map_firsts, List.any_eq_true, List.mem_map]
      refine exists_congr fun b => and_congr_right fun _ => ?_
      rw [h, eq_comm]
    rw [List.foldl_append, ih, firsts_concat]
    show appendNew same (firsts key as) a = _
    unfold appendNew
    simp only [hs]
    split
    · exact (List.append_nil _).symm
    · rfl

end

/-! ## Diagnostics -/

/-- Diagnostics of one code for one parameter. -/
def Diagnostic.sameKey (d e : Diagnostic) : Bool :=
  d.code = e.code && d.parameter = e.parameter

theorem Diagnostic.sameKey_iff (d e : Diagnostic) : d.sameKey e = true ↔ d.key = e.key := by
  simp [sameKey, key]

namespace Report

theorem has_iff {r : Report} {code : DiagnosticCode} {parameter : Text} :
    r.has code parameter = true ↔ (code, parameter) ∈ r.seen := by
  simp [has]

theorem warn_of_has {r : Report} {d : Diagnostic} (h : r.has d.code d.parameter = true) :
    r.warn d = r :=
  if_pos h

theorem warn_of_not_has {r : Report} {d : Diagnostic} (h : r.has d.code d.parameter = false) :
    r.warn d = ⟨r.entries ++ [d], d.key :: r.seen⟩ :=
  if_neg (by simp [h])

theorem extend_append (r : Report) (ds es : List Diagnostic) :
    r.extend (ds ++ es) = (r.extend ds).extend es :=
  List.foldl_append

theorem has_warn_self (r : Report) (d : Diagnostic) :
    (r.warn d).has d.code d.parameter = true := by
  cases h : r.has d.code d.parameter with
  | true => rwa [warn_of_has h]
  | false =>
    rw [warn_of_not_has h, has_iff]
    exact List.mem_cons_self

theorem has_warn {r : Report} {code : DiagnosticCode} {parameter : Text}
    (h : r.has code parameter = true) (d : Diagnostic) : (r.warn d).has code parameter = true := by
  cases hd : r.has d.code d.parameter with
  | true => rwa [warn_of_has hd]
  | false =>
    rw [warn_of_not_has hd, has_iff]
    exact List.mem_cons_of_mem _ (has_iff.1 h)

/-- What a report has, it keeps. -/
theorem has_extend {r : Report} {code : DiagnosticCode} {parameter : Text}
    (h : r.has code parameter = true) (ds : List Diagnostic) :
    (r.extend ds).has code parameter = true := by
  induction ds generalizing r with
  | nil => exact h
  | cons d ds ih => exact ih (has_warn h d)

theorem has_extend_of_mem {d : Diagnostic} {ds : List Diagnostic} (h : d ∈ ds) (r : Report) :
    (r.extend ds).has d.code d.parameter = true := by
  obtain ⟨before, after, rfl⟩ := List.append_of_mem h
  rw [extend_append]
  exact has_extend (has_warn_self _ d) after

theorem extend_of_has {r : Report} {ds : List Diagnostic}
    (h : ∀ d ∈ ds, r.has d.code d.parameter = true) : r.extend ds = r := by
  induction ds with
  | nil => rfl
  | cons d ds ih =>
    obtain ⟨hd, hds⟩ := List.forall_mem_cons.1 h
    exact (congrArg (extend · ds) (warn_of_has hd)).trans (ih hds)

/-! ## The list and the keys in step -/

/-- The keys that have been seen are those of the entries, each once. -/
structure InStep (r : Report) : Prop where
  mem_seen_iff : ∀ key, key ∈ r.seen ↔ key ∈ r.entries.map Diagnostic.key
  nodup_seen : r.seen.Nodup
  nodup_keys : (r.entries.map Diagnostic.key).Nodup

namespace InStep
variable {r : Report}

theorem empty : InStep {} := ⟨fun _ => Iff.rfl, List.nodup_nil, List.nodup_nil⟩

/-- **One warning keeps them in step.** -/
theorem warn (h : r.InStep) (d : Diagnostic) : (r.warn d).InStep := by
  cases hd : r.has d.code d.parameter with
  | true => rwa [warn_of_has hd]
  | false =>
    have hseen : d.key ∉ r.seen := fun hm => Bool.false_ne_true (hd.symm.trans (has_iff.2 hm))
    have hkeys : d.key ∉ r.entries.map Diagnostic.key := mt (h.mem_seen_iff _).2 hseen
    rw [warn_of_not_has hd]
    refine ⟨fun key => ?_, List.nodup_cons.2 ⟨hseen, h.nodup_seen⟩, ?_⟩
    · rw [List.mem_cons, List.map_append, List.mem_append, List.map_singleton, List.mem_singleton,
        h.mem_seen_iff, or_comm]
    · rw [List.map_append, List.map_singleton, ← List.concat_eq_append, List.nodup_concat]
      exact ⟨hkeys, h.nodup_keys⟩

theorem extend (h : r.InStep) (ds : List Diagnostic) : (r.extend ds).InStep := by
  induction ds generalizing r with
  | nil => exact h
  | cons d ds ih => exact ih (h.warn d)

theorem has_iff_exists (h : r.InStep) {code : DiagnosticCode} {parameter : Text} :
    r.has code parameter = true ↔ ∃ d ∈ r.entries, d.key = (code, parameter) := by
  rw [has_iff, h.mem_seen_iff, List.mem_map]

theorem has_eq_any (h : r.InStep) (d : Diagnostic) :
    r.has d.code d.parameter = r.entries.any d.sameKey := by
  rw [Bool.eq_iff_iff, h.has_iff_exists, List.any_eq_true]
  refine exists_congr fun e => and_congr_right fun _ => ?_
  rw [Diagnostic.sameKey_iff, eq_comm]
  rfl

/-- In step, a look at what has been seen is a look at the entries. -/
theorem entries_warn (h : r.InStep) (d : Diagnostic) :
    (r.warn d).entries = appendNew Diagnostic.sameKey r.entries d := by
  rw [Report.warn, appendNew, h.has_eq_any]
  split <;> rfl

theorem entries_extend (h : r.InStep) (ds : List Diagnostic) :
    (r.extend ds).entries = ds.foldl (appendNew Diagnostic.sameKey) r.entries := by
  induction ds generalizing r with
  | nil => rfl
  | cons d ds ih =>
    refine (ih (h.warn d)).trans ?_
    rw [h.entries_warn, List.foldl_cons]

end InStep

theorem entries_extend_empty (ds : List Diagnostic) :
    (Report.extend {} ds).entries = ds.eraseDupsBy Diagnostic.sameKey := by
  rw [InStep.empty.entries_extend, foldl_appendNew_nil]

/-! ## Steps -/

/-- The diagnostics that a step tries to add. -/
def Step.attempted : Step → List Diagnostic
  | warn d => [d]
  | extend ds => ds
  | untyped name => [.untyped name]
  | reserved name taken => [.reserved name taken]

/-- What a step leaves. -/
theorem step_snd (r : Report) (step : Step) : (r.step step).2 = r.extend step.attempted := by
  cases step <;> rfl

/-- **Every step keeps the list and the keys in step.** -/
theorem InStep.step {r : Report} (h : r.InStep) (step : Step) : (r.step step).2.InStep := by
  rw [step_snd]
  exact h.extend step.attempted

/-- So does every run. -/
theorem InStep.run {r : Report} (h : r.InStep) (steps : List Step) : (r.run steps).InStep := by
  induction steps generalizing r with
  | nil => exact h
  | cons step steps ih => exact ih (h.step step)

/-- What a run leaves. -/
theorem run_eq_extend (r : Report) (steps : List Step) :
    r.run steps = r.extend (steps.flatMap (·.attempted)) := by
  unfold run extend
  simp only [List.foldl_flatMap, step_snd]
  rfl

theorem entries_run (steps : List Step) :
    (Report.run {} steps).entries = firsts Diagnostic.key (steps.flatMap (·.attempted)) := by
  rw [run_eq_extend, InStep.empty.entries_extend]
  exact foldl_appendNew_eq_firsts _ Diagnostic.sameKey_iff _

theorem entries_prefix_warn (r : Report) (d : Diagnostic) : r.entries <+: (r.warn d).entries := by
  unfold warn
  split
  · exact List.prefix_rfl
  · exact List.prefix_append _ _

/-- A report only grows at its end. -/
theorem entries_prefix_step (r : Report) (step : Step) : r.entries <+: (r.step step).2.entries := by
  rw [step_snd]
  generalize step.attempted = ds
  induction ds generalizing r with
  | nil => exact List.prefix_rfl
  | cons d ds ih => exact (r.entries_prefix_warn d).trans (ih (r.warn d))

/-- A warning that is answered with yes is one more entry. -/
theorem step_warn_fst (r : Report) (d : Diagnostic) :
    (r.step (.warn d)).1 = some true ↔
      (r.step (.warn d)).2.entries.length = r.entries.length + 1 := by
  show some (!r.has d.code d.parameter) = some true ↔ (r.warn d).entries.length = _
  unfold warn
  cases h : r.has d.code d.parameter with
  | true => simp
  | false => simp

/-- The entries of one parameter differ in their codes. -/
theorem nodup_codesFor {r : Report} (h : (r.entries.map Diagnostic.key).Nodup) (parameter : Text) :
    (r.codesFor parameter).Nodup := by
  have hk : (r.codesFor parameter).map (·, parameter) =
      (r.entries.filter (·.parameter = parameter)).map Diagnostic.key := by
    unfold codesFor
    rw [List.map_map]
    refine List.map_congr_left fun d hd => ?_
    have hp := of_decide_eq_true (List.mem_filter.1 hd).2
    show (d.code, parameter) = (d.code, d.parameter)
    rw [hp]
  refine List.Nodup.of_map (·, parameter) ?_
  rw [hk]
  exact (List.filter_sublist.map Diagnostic.key).nodup h

/-- What a report has been told, it knows. -/
theorem extend_of_mem {ds es : List Diagnostic} (h : ∀ e ∈ es, e ∈ ds) (r : Report) :
    (r.extend ds).extend es = r.extend ds :=
  extend_of_has fun e he => has_extend_of_mem (h e he) r

/-- A report is the log of the steps taken on it: the first of each code for a parameter stays,
where it was added, and the keys that have been seen are those of the entries. -/
structure IsLog (steps : List Step) (r : Report) : Prop where
  inStep : r.InStep
  entries : r.entries = firsts Diagnostic.key (steps.flatMap (·.attempted))
  distinct : (r.entries.map Diagnostic.key).Nodup
  grows : ∀ step, r.entries <+: (r.step step).2.entries
  answers : ∀ d, (r.step (.warn d)).1 = some true ↔
    (r.step (.warn d)).2.entries.length = r.entries.length + 1
  codes : ∀ parameter, (r.codesFor parameter).Nodup
  own : r.extend r.entries = r
  replayed : ∀ n, r.run (steps.take n) = r

/-- **Every run of steps leaves a log** of the first of each code for a parameter, with the keys
that have been seen in step. -/
theorem run_isLog (steps : List Step) : (Report.run {} steps).IsLog steps := by
  have hi : (Report.run {} steps).InStep := InStep.empty.run steps
  refine ⟨hi, entries_run steps, hi.nodup_keys, entries_prefix_step _, step_warn_fst _,
    nodup_codesFor hi.nodup_keys, ?_, fun n => ?_⟩
  · exact extend_of_has fun d hm => hi.has_iff_exists.2 ⟨d, hm, rfl⟩
  · rw [run_eq_extend _ (steps.take n), run_eq_extend]
    refine extend_of_mem (fun d hm => ?_) {}
    obtain ⟨step, hs, hm⟩ := List.mem_flatMap.1 hm
    exact List.mem_flatMap.2 ⟨step, List.mem_of_mem_take hs, hm⟩

end Report

end CondParam
