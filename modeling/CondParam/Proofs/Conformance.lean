import CondParam.Proofs.Payload
import Mathlib.Data.List.Nodup

/-!
# Payloads that do not conform

What the entries of a payload's tables have to be is written down once (`Shape.entries`,
`Shape.required`). From it come the payloads that have the shape of a script (`Conforms`) and, for
all others, the places where they depart from it (`Flaw`): a value without flaws conforms
(`conforms_of_not_flaw`). The checks report the flaws of a value, all of them and each once
(`Checked.Reports`), so a payload is rejected exactly if it does not conform, and every problem can
be found in it (`Script.ofData_rejects`).
-/

set_option autoImplicit false

namespace CondParam

/-! ## What is expected -/

/-- What a value has to be. -/
inductive Expected where
  | text
  | kind
  | list (item : Expected)
  | nullable (value : Expected)
  | table (shape : Shape)

namespace Shape

/-- What the entries of a table have to be. -/
def entries : Shape → List (Text × Expected)
  | scriptTable => [("param_block", .nullable (.table blockTable))]
  | blockTable => [("parameters", .list (.table parameterTable)), ("attributes", .list .text)]
  | parameterTable =>
    [("name", .text), ("annotations", .list (.table annotationTable)), ("default", .nullable .text),
     ("extent", .text)]
  | annotationTable =>
    [("tag", .text), ("kind", .kind), ("positional", .list .text),
     ("named", .list (.table argumentTable)), ("extent", .text)]
  | argumentTable => [("name", .text), ("expression", .nullable .text)]

/-- The entries that have to be there. -/
def required : Shape → List Text
  | scriptTable | blockTable => []
  | parameterTable => ["name", "extent"]
  | annotationTable => ["tag"]
  | argumentTable => ["name"]

theorem exists_mem_entries {shape : Shape} {key : Text} (h : key ∈ shape.required) :
    ∃ e, (key, e) ∈ shape.entries := by
  have hk : key ∈ shape.entries.map (·.1) := by
    revert key
    cases shape <;> decide
  obtain ⟨⟨k, e⟩, hm, rfl⟩ := List.mem_map.1 hk
  exact ⟨e, hm⟩

end Shape

/-- Values that are as expected. -/
inductive Conforms : Expected → Data → Prop
  | text (t : Text) : Conforms .text (.text t)
  | kind (k : AnnotationKind) : Conforms .kind (.text k.name)
  | list {item : Expected} {ds : List Data} :
      (∀ d ∈ ds, Conforms item d) → Conforms (.list item) (.list ds)
  | null {value : Expected} : Conforms (.nullable value) .null
  | value {value : Expected} {d : Data} : Conforms value d → Conforms (.nullable value) d
  | table {shape : Shape} {es : List (Text × Data)} :
      (∀ key ∈ shape.required, es.lookup key ≠ none) →
      (∀ key e d, (key, e) ∈ shape.entries → es.lookup key = some d → Conforms e d) →
      Conforms (.table shape) (.table es)

/-- The problem seen from one step further out. -/
def Problem.under (step : PathStep) (p : Problem) : Problem := { p with path := step :: p.path }

/-- Where a value is not as expected. -/
inductive Flaw : Expected → Data → Problem → Prop
  | text {d : Data} : (∀ t, d ≠ .text t) → Flaw .text d ⟨[], .notText⟩
  | kind {d : Data} : (∀ k : AnnotationKind, d ≠ .text k.name) → Flaw .kind d ⟨[], .notKind⟩
  | list {item : Expected} {d : Data} :
      (∀ ds, d ≠ .list ds) → Flaw (.list item) d ⟨[], .notList⟩
  | item {item : Expected} {ds : List Data} {n : Nat} {d : Data} {p : Problem} :
      ds[n]? = some d → Flaw item d p → Flaw (.list item) (.list ds) (p.under (.index n))
  | value {value : Expected} {d : Data} {p : Problem} :
      d ≠ .null → Flaw value d p → Flaw (.nullable value) d p
  | table {shape : Shape} {d : Data} :
      (∀ es, d ≠ .table es) → Flaw (.table shape) d ⟨[], .notTable shape⟩
  | missing {shape : Shape} {es : List (Text × Data)} {key : Text} :
      key ∈ shape.required → es.lookup key = none →
      Flaw (.table shape) (.table es) ⟨[.key key], .missing⟩
  | entry {shape : Shape} {es : List (Text × Data)} {key : Text} {e : Expected} {d : Data}
      {p : Problem} :
      (key, e) ∈ shape.entries → es.lookup key = some d → Flaw e d p →
      Flaw (.table shape) (.table es) (p.under (.key key))

theorem Flaw.not_conforms {e : Expected} {d : Data} {p : Problem} (h : Flaw e d p) :
    ¬ Conforms e d := by
  induction h with
  | text h =>
    rintro ⟨t⟩
    exact h t rfl
  | kind h =>
    intro hc
    cases hc with
    | kind k => exact h k rfl
  | list h =>
    intro hc
    cases hc with
    | list _ => exact h _ rfl
  | item hd _ ih =>
    intro hc
    cases hc with
    | list hitems => exact ih (hitems _ (List.mem_of_getElem? hd))
  | value hd _ ih =>
    intro hc
    cases hc with
    | null => exact hd rfl
    | value hv => exact ih hv
  | table h =>
    intro hc
    cases hc with
    | table _ _ => exact h _ rfl
  | missing hk hl =>
    intro hc
    cases hc with
    | table hr _ => exact hr _ hk hl
  | entry hk hl _ ih =>
    intro hc
    cases hc with
    | table _ he => exact ih (he _ _ _ hk hl)

theorem sizeOf_lt_of_lookup {es : List (Text × Data)} {key : Text} {d : Data}
    (h : es.lookup key = some d) : sizeOf d < sizeOf es := by
  induction es with
  | nil => cases h
  | cons entry es ih =>
    obtain ⟨k, v⟩ := entry
    rw [List.lookup_cons] at h
    split at h
    · cases h
      simp
      omega
    · have := ih h
      simp
      omega

/-- **A value without flaws conforms.** -/
theorem conforms_of_not_flaw : ∀ (e : Expected) (d : Data), (∀ p, ¬ Flaw e d p) → Conforms e d
  | .text, d, h => by
    by_cases ht : ∃ t, d = .text t
    · obtain ⟨t, rfl⟩ := ht
      exact .text t
    · exact absurd (.text (not_exists.1 ht)) (h _)
  | .kind, d, h => by
    by_cases hk : ∃ k : AnnotationKind, d = .text k.name
    · obtain ⟨k, rfl⟩ := hk
      exact .kind k
    · exact absurd (.kind (not_exists.1 hk)) (h _)
  | .list item, d, h => by
    by_cases hl : ∃ ds, d = .list ds
    · obtain ⟨ds, he⟩ := hl
      rw [he] at h ⊢
      refine .list fun x hx => ?_
      have hlt : sizeOf x < sizeOf d := by
        have := List.sizeOf_lt_of_mem hx
        rw [he, Data.list.sizeOf_spec]
        omega
      obtain ⟨n, hn⟩ := List.mem_iff_getElem?.1 hx
      exact conforms_of_not_flaw item x fun p hp => h _ (.item hn hp)
    · exact absurd (.list (not_exists.1 hl)) (h _)
  | .nullable value, d, h => by
    by_cases hd : d = .null
    · rw [hd]
      exact .null
    · exact .value (conforms_of_not_flaw value d fun p hp => h p (.value hd hp))
  | .table shape, d, h => by
    by_cases ht : ∃ es, d = .table es
    · obtain ⟨es, he⟩ := ht
      rw [he] at h ⊢
      refine .table (fun key hk hl => h _ (.missing hk hl)) fun key e x hk hl => ?_
      have hlt : sizeOf x < sizeOf d := by
        have := sizeOf_lt_of_lookup hl
        rw [he, Data.table.sizeOf_spec]
        omega
      exact conforms_of_not_flaw e x fun p hp => h _ (.entry hk hl hp)
    · exact absurd (.table (not_exists.1 ht)) (h _)
  termination_by e d => (sizeOf d, sizeOf e)

/-! ## Where a problem is -/

namespace Data

def item? (d : Data) (n : Nat) : Option Data :=
  match d with
  | list ds => ds[n]?
  | _ => none

/-- What a path leads to. -/
def at? (d : Data) : List PathStep → Option Data
  | [] => some d
  | .key k :: path => (d.get? k).bind (·.at? path)
  | .index n :: path => (d.item? n).bind (·.at? path)

end Data

/-- The path of a problem leads to a value; the path to what is missing leads to a table without
its last step, and the table has no entry for it. -/
def Problem.LocatedIn (d : Data) (p : Problem) : Prop :=
  if p.kind = .missing then
    ∃ path key es, p.path = path ++ [.key key] ∧ d.at? path = some (.table es) ∧
      es.lookup key = none
  else ∃ v, d.at? p.path = some v

theorem Problem.LocatedIn.under {d v : Data} {step : PathStep} {p : Problem}
    (h : p.LocatedIn d) (hs : ∀ path, v.at? (step :: path) = d.at? path) :
    (p.under step).LocatedIn v := by
  unfold LocatedIn at h ⊢
  show if p.kind = .missing then _ else ∃ x, v.at? (step :: p.path) = some x
  split
  · rename_i hk
    rw [if_pos hk] at h
    obtain ⟨path, key, es, hp, ht, hl⟩ := h
    refine ⟨step :: path, key, es, ?_, (hs path).trans ht, hl⟩
    show step :: p.path = _
    rw [hp, List.cons_append]
  · rename_i hk
    rw [if_neg hk] at h
    rw [hs]
    exact h

/-- **Every flaw is found where it is said to be.** -/
theorem Flaw.locatedIn {e : Expected} {d : Data} {p : Problem} (h : Flaw e d p) :
    p.LocatedIn d := by
  induction h with
  | text | kind | list | table => exact ⟨_, rfl⟩
  | item hd _ ih =>
    refine ih.under fun path => ?_
    show Option.bind _ _ = _
    rw [Data.item?, hd]
    rfl
  | value _ _ ih => exact ih
  | @missing shape es key _ hl => exact ⟨[], key, es, rfl, rfl, hl⟩
  | entry _ hl _ ih =>
    refine ih.under fun path => ?_
    show Option.bind _ _ = _
    rw [Data.get?, hl]
    rfl

/-! ## What a check reports -/

namespace Checked

section
variable {α β : Type}

def problems : Checked α → List Problem
  | ok _ => []
  | bad ps => ps

@[simp] theorem problems_map (f : α → β) (x : Checked α) : (f <$> x).problems = x.problems := by
  cases x <;> rfl

@[simp] theorem problems_seq (f : Checked (α → β)) (x : Checked α) :
    (f <*> x).problems = f.problems ++ x.problems := by
  cases f with
  | ok g => cases x <;> rfl
  | bad ps =>
    cases x with
    | ok a => exact (List.append_nil ps).symm
    | bad qs => rfl

@[simp] theorem problems_under (step : PathStep) (x : Checked α) :
    (x.under step).problems = x.problems.map (·.under step) := by
  cases x <;> rfl

/-- A check reports certain problems: all of them, no two at one place, and there are some if the
value is rejected. -/
structure Reports (x : Checked α) (flaws : Problem → Prop) : Prop where
  mem_iff : ∀ p, p ∈ x.problems ↔ flaws p
  distinct : (x.problems.map (·.path)).Nodup
  ne_bad_nil : x ≠ bad []

namespace Reports

variable {x : Checked α} {flaws flaws' : Problem → Prop}

theorem congr (h : x.Reports flaws) (hf : ∀ p, flaws p ↔ flaws' p) : x.Reports flaws' :=
  ⟨fun p => (h.mem_iff p).trans (hf p), h.distinct, h.ne_bad_nil⟩

theorem ok {a : α} (h : ∀ p, ¬ flaws p) : (Checked.ok a).Reports flaws :=
  ⟨fun p => ⟨nofun, fun hp => absurd hp (h p)⟩, List.nodup_nil, nofun⟩

/-- There is one problem, with the value as a whole. -/
theorem problem {kind : ProblemKind} (h : flaws ⟨[], kind⟩)
    (hu : ∀ p, flaws p → p = ⟨[], kind⟩) : (Checked.problem kind : Checked α).Reports flaws := by
  refine ⟨fun p => List.mem_singleton.trans ⟨?_, hu p⟩, List.nodup_singleton _, nofun⟩
  rintro rfl
  exact h

theorem map (h : x.Reports flaws) (f : α → β) : (f <$> x).Reports flaws := by
  refine ⟨fun p => ?_, ?_, ?_⟩
  · rw [problems_map]
    exact h.mem_iff p
  · rw [problems_map]
    exact h.distinct
  · intro he
    cases x with
    | ok a => cases he
    | bad ps =>
      cases he
      exact h.ne_bad_nil rfl

/-- Problems at different places can be put together. -/
theorem seq {f : Checked (α → β)} (hf : f.Reports flaws) (hx : x.Reports flaws')
    (hd : ∀ p q, flaws p → flaws' q → p.path ≠ q.path) :
    (f <*> x).Reports fun p => flaws p ∨ flaws' p := by
  refine ⟨fun p => ?_, ?_, ?_⟩
  · rw [problems_seq, List.mem_append, hf.mem_iff, hx.mem_iff]
  · rw [problems_seq, List.map_append, List.nodup_append]
    refine ⟨hf.distinct, hx.distinct, ?_⟩
    intro s hs t ht
    obtain ⟨p, hp, rfl⟩ := List.mem_map.1 hs
    obtain ⟨q, hq, rfl⟩ := List.mem_map.1 ht
    exact hd p q ((hf.mem_iff p).1 hp) ((hx.mem_iff q).1 hq)
  · intro he
    cases f with
    | ok g =>
      cases x with
      | ok a => cases he
      | bad ps =>
        cases he
        exact hx.ne_bad_nil rfl
    | bad ps =>
      have hps : ps = [] := by
        cases x with
        | ok a =>
          cases he
          rfl
        | bad qs =>
          injection he with he
          exact (List.append_eq_nil_iff.1 he).1
      exact hf.ne_bad_nil (congrArg bad hps)

theorem under (h : x.Reports flaws) (step : PathStep) :
    (x.under step).Reports fun p => ∃ q, flaws q ∧ p = q.under step := by
  refine ⟨fun p => ?_, ?_, ?_⟩
  · rw [problems_under, List.mem_map]
    refine exists_congr fun q => ?_
    rw [h.mem_iff, eq_comm]
  · have hp : (x.under step).problems.map (·.path) =
        (x.problems.map (·.path)).map (step :: ·) := by
      rw [problems_under, List.map_map, List.map_map]
      rfl
    rw [hp]
    exact h.distinct.map List.cons_injective
  · intro he
    cases x with
    | ok a => cases he
    | bad ps =>
      injection he with he
      exact h.ne_bad_nil (congrArg bad (List.map_eq_nil_iff.1 he))

end Reports

end

/-! ### Values -/

section
variable {α : Type} {check : Data → Checked α} {e : Expected}

theorem text_reports (d : Data) : (text d).Reports (Flaw .text d) := by
  cases d with
  | text t => exact .ok fun p hp => hp.not_conforms (.text t)
  | null | bool | int | floating | moment | list | table =>
    refine .problem (.text nofun) ?_
    rintro p ⟨⟩
    rfl

theorem nullable_reports (h : ∀ d, (check d).Reports (Flaw e d)) (d : Data) :
    (nullable check d).Reports (Flaw (.nullable e) d) := by
  cases d with
  | null => exact .ok fun p hp => hp.not_conforms .null
  | bool | int | floating | text | moment | list | table =>
    refine ((h _).map some).congr fun p => ⟨.value nofun, ?_⟩
    rintro ⟨⟩
    assumption

/-- The flaws of the items, the first of which has index `n`. -/
theorem items_reports (h : ∀ d, (check d).Reports (Flaw e d)) (n : Nat) (ds : List Data) :
    (items check n ds).Reports
      fun p => ∃ i d q, ds[i]? = some d ∧ Flaw e d q ∧ p = q.under (.index (n + i)) := by
  induction ds generalizing n with
  | nil =>
    refine .ok ?_
    rintro p ⟨i, d, q, hd, -⟩
    cases hd
  | cons d ds ih =>
    have hfirst := ((h d).under (.index n)).map List.cons
    refine (hfirst.seq (ih (n + 1)) ?_).congr fun p => ?_
    · -- the index tells the items apart
      rintro p q ⟨p', -, rfl⟩ ⟨i, _, q', -, -, rfl⟩ hpath
      injection hpath with hstep _
      injection hstep with hi
      omega
    · constructor
      · rintro (⟨q, hq, rfl⟩ | ⟨i, d', q, hd, hq, rfl⟩)
        · exact ⟨0, d, q, rfl, hq, rfl⟩
        · refine ⟨i + 1, d', q, hd, hq, ?_⟩
          rw [Nat.add_right_comm, Nat.add_assoc]
      · rintro ⟨i, d', q, hd, hq, rfl⟩
        cases i with
        | zero =>
          cases hd
          exact .inl ⟨q, hq, rfl⟩
        | succ i =>
          refine .inr ⟨i, d', q, hd, hq, ?_⟩
          rw [Nat.add_right_comm, Nat.add_assoc]

theorem list_reports (h : ∀ d, (check d).Reports (Flaw e d)) (d : Data) :
    (list check d).Reports (Flaw (.list e) d) := by
  cases d with
  | list ds =>
    refine (items_reports h 0 ds).congr fun p => ⟨?_, ?_⟩
    · rintro ⟨i, d, q, hd, hq, rfl⟩
      rw [Nat.zero_add]
      exact .item hd hq
    · intro hp
      cases hp with
      | list hd => exact absurd rfl (hd ds)
      | @item _ _ n d q hd hq => exact ⟨n, d, q, hd, hq, by rw [Nat.zero_add]⟩
  | null | bool | int | floating | text | moment | table =>
    refine .problem (.list nofun) ?_
    rintro p ⟨⟩
    rfl

end

/-! ### Tables -/

/-- What is wrong with an entry of a table: it is missing, or its value has a flaw. -/
def EntryFlaw (shape : Shape) (es : List (Text × Data)) (key : Text) (e : Expected) (p : Problem) :
    Prop :=
  (key ∈ shape.required ∧ es.lookup key = none ∧ p = ⟨[.key key], .missing⟩) ∨
    ∃ d q, es.lookup key = some d ∧ Flaw e d q ∧ p = q.under (.key key)

section
variable {α β : Type} {check : Data → Checked α} {shape : Shape} {es : List (Text × Data)}
  {key : Text} {e : Expected}

theorem EntryFlaw.head?_path {p : Problem} (h : EntryFlaw shape es key e p) :
    p.path.head? = some (.key key) := by
  rcases h with ⟨-, -, rfl⟩ | ⟨d, q, -, -, rfl⟩ <;> rfl

theorem flaw_table_iff {p : Problem} :
    Flaw (.table shape) (.table es) p ↔ ∃ f ∈ shape.entries, EntryFlaw shape es f.1 f.2 p := by
  constructor
  · intro h
    cases h with
    | table h => exact absurd rfl (h es)
    | missing hk hl =>
      obtain ⟨e, he⟩ := Shape.exists_mem_entries hk
      exact ⟨_, he, .inl ⟨hk, hl, rfl⟩⟩
    | entry hk hl hq => exact ⟨_, hk, .inr ⟨_, _, hl, hq, rfl⟩⟩
  · rintro ⟨⟨key, e⟩, hf, ⟨hk, hl, rfl⟩ | ⟨d, q, hl, hq, rfl⟩⟩
    · exact .missing hk hl
    · exact .entry hf hl hq

/-- An entry that is there has the flaws of its value. -/
theorem entryFlaw_iff_of_lookup {d : Data} (hl : es.lookup key = some d) {p : Problem} :
    (∃ q, Flaw e d q ∧ p = q.under (.key key)) ↔ EntryFlaw shape es key e p := by
  constructor
  · rintro ⟨q, hq, rfl⟩
    exact .inr ⟨d, q, hl, hq, rfl⟩
  · rintro (⟨-, hn, -⟩ | ⟨d', q, hd, hq, rfl⟩)
    · cases hl.symm.trans hn
    · cases hl.symm.trans hd
      exact ⟨q, hq, rfl⟩

theorem required_reports (h : ∀ d, (check d).Reports (Flaw e d)) (hk : key ∈ shape.required) :
    (required check es key).Reports (EntryFlaw shape es key e) := by
  unfold required
  cases hl : es.lookup key with
  | none =>
    have hm : (problem .missing : Checked α).Reports (· = ⟨[], .missing⟩) :=
      .problem rfl fun p h => h
    refine (hm.under (.key key)).congr fun p => ⟨?_, ?_⟩
    · rintro ⟨q, rfl, rfl⟩
      exact .inl ⟨hk, hl, rfl⟩
    · rintro (⟨-, -, rfl⟩ | ⟨d, q, hd, -⟩)
      · exact ⟨_, rfl, rfl⟩
      · cases hl.symm.trans hd
  | some d => exact ((h d).under (.key key)).congr fun p => entryFlaw_iff_of_lookup hl

theorem optional_reports {default : α} (h : ∀ d, (check d).Reports (Flaw e d))
    (hk : key ∉ shape.required) :
    (Checked.optional check default es key).Reports (EntryFlaw shape es key e) := by
  unfold Checked.optional
  cases hl : es.lookup key with
  | none =>
    refine .ok ?_
    rintro p (⟨hr, -⟩ | ⟨d, q, hd, -⟩)
    · exact hk hr
    · cases hl.symm.trans hd
  | some d => exact ((h d).under (.key key)).congr fun p => entryFlaw_iff_of_lookup hl

/-- The problems of some entries of a table. -/
abbrev ReportsEntries (shape : Shape) (es : List (Text × Data)) (fs : List (Text × Expected))
    (x : Checked α) : Prop :=
  x.Reports fun p => ∃ f ∈ fs, EntryFlaw shape es f.1 f.2 p

theorem Reports.first {x : Checked α} (h : x.Reports (EntryFlaw shape es key e)) (f : α → β) :
    ReportsEntries shape es [(key, e)] (f <$> x) := by
  refine (h.map f).congr fun p => ?_
  simp only [List.mem_singleton, exists_eq_left]

/-- The key tells an entry from the ones before it. -/
theorem Reports.next {fs : List (Text × Expected)} {f : Checked (α → β)} {x : Checked α}
    (hf : ReportsEntries shape es fs f) (hx : x.Reports (EntryFlaw shape es key e))
    (hk : key ∉ fs.map (·.1)) : ReportsEntries shape es (fs ++ [(key, e)]) (f <*> x) := by
  refine (hf.seq hx ?_).congr fun p => ?_
  · rintro p q ⟨f, hm, hp⟩ hq hpath
    have hkey : some (PathStep.key f.1) = some (.key key) := by
      rw [← hp.head?_path, ← hq.head?_path, hpath]
    cases hkey
    exact hk (List.mem_map_of_mem hm)
  · simp only [List.mem_append, List.mem_singleton, or_and_right, exists_or, exists_eq_left]

theorem table_reports {check : List (Text × Data) → Checked α}
    (h : ∀ es, ReportsEntries shape es shape.entries (check es)) (d : Data) :
    (table shape check d).Reports (Flaw (.table shape) d) := by
  cases d with
  | table es => exact (h es).congr fun p => flaw_table_iff.symm
  | null | bool | int | floating | text | moment | list =>
    refine .problem (.table nofun) ?_
    rintro p ⟨⟩
    rfl

end

end Checked

open Checked

/-! ## The checks of a script -/

theorem AnnotationKind.ofData_reports (d : Data) : (ofData d).Reports (Flaw .kind d) := by
  by_cases hk : ∃ k : AnnotationKind, d = .text k.name
  · obtain ⟨k, rfl⟩ := hk
    rw [ofData_name]
    exact .ok fun p hp => hp.not_conforms (.kind k)
  · have hd : ofData d = problem .notKind := by
      unfold ofData
      split
      · rename_i t
        rw [if_neg fun h => hk ⟨.attr, congrArg _ h⟩,
          if_neg fun h => hk ⟨.typeConstraint, congrArg _ h⟩]
      · rfl
    rw [hd]
    refine .problem (.kind (not_exists.1 hk)) ?_
    rintro p ⟨⟩
    rfl

theorem NamedArgument.ofData_reports :
    ∀ d, (ofData d).Reports (Flaw (.table .argumentTable) d) :=
  table_reports fun _ =>
    ((required_reports text_reports (by decide)).first _).next
      (optional_reports (nullable_reports text_reports) (by decide)) (by decide)

theorem Annotation.ofData_reports :
    ∀ d, (ofData d).Reports (Flaw (.table .annotationTable) d) :=
  table_reports fun _ =>
    (((((required_reports text_reports (by decide)).first _).next
      (optional_reports AnnotationKind.ofData_reports (by decide)) (by decide)).next
      (optional_reports (list_reports text_reports) (by decide)) (by decide)).next
      (optional_reports (list_reports NamedArgument.ofData_reports) (by decide)) (by decide)).next
      (optional_reports text_reports (by decide)) (by decide)

theorem Parameter.ofData_reports :
    ∀ d, (ofData d).Reports (Flaw (.table .parameterTable) d) :=
  table_reports fun _ =>
    ((((required_reports text_reports (by decide)).first _).next
      (optional_reports (list_reports Annotation.ofData_reports) (by decide)) (by decide)).next
      (optional_reports (nullable_reports text_reports) (by decide)) (by decide)).next
      (required_reports text_reports (by decide)) (by decide)

theorem ParamBlock.ofData_reports :
    ∀ d, (ofData d).Reports (Flaw (.table .blockTable) d) :=
  table_reports fun _ =>
    ((optional_reports (list_reports Parameter.ofData_reports) (by decide)).first _).next
      (optional_reports (list_reports text_reports) (by decide)) (by decide)

/-- **The check of a script reports the flaws of a payload.** -/
theorem Script.ofData_reports :
    ∀ d, (ofData d).Reports (Flaw (.table .scriptTable) d) :=
  table_reports fun _ =>
    (optional_reports (nullable_reports ParamBlock.ofData_reports) (by decide)).first _

/-- **A payload is rejected exactly if it does not have the shape of a script.** Then its flaws are
reported, all of them, no two with the same path, and each path leads to the flaw. -/
theorem Script.ofData_rejects (d : Data) :
    ((∃ ps, ofData d = bad ps) ↔ ¬ Conforms (.table .scriptTable) d) ∧
      ∀ ps, ofData d = bad ps →
        ps ≠ [] ∧ (ps.map (·.path)).Nodup ∧ (∀ p ∈ ps, p.LocatedIn d) ∧
          ∀ p, p ∈ ps ↔ Flaw (.table .scriptTable) d p := by
  have hr := Script.ofData_reports d
  have hbad {ps : List Problem} (h : ofData d = bad ps) :
      ps ≠ [] ∧ ∀ p, p ∈ ps ↔ Flaw (.table .scriptTable) d p := by
    rw [h] at hr
    exact ⟨fun hn => hr.ne_bad_nil (congrArg bad hn), hr.mem_iff⟩
  refine ⟨⟨?_, fun hc => ?_⟩, fun ps h => ?_⟩
  · rintro ⟨ps, h⟩
    obtain ⟨hne, hmem⟩ := hbad h
    obtain ⟨p, hp⟩ := List.exists_mem_of_ne_nil ps hne
    exact ((hmem p).1 hp).not_conforms
  · cases h : ofData d with
    | bad ps => exact ⟨ps, rfl⟩
    | ok s =>
      rw [h] at hr
      exact absurd (conforms_of_not_flaw _ d fun p hp => nomatch (hr.mem_iff p).2 hp) hc
  · obtain ⟨hne, hmem⟩ := hbad h
    rw [h] at hr
    exact ⟨hne, hr.distinct, fun p hp => ((hmem p).1 hp).locatedIn, hmem⟩

/-- A parameter without an extent whose name is a number, null for a parameter, and null for a list:
four problems. -/
theorem Script.ofData_rejects_nested :
    let block : Data := .table
      [("parameters", .list [.table [("name", .int 1)], .null]), ("attributes", .null)]
    let d : Data := .table [("param_block", block)]
    let ps : List Problem :=
      [⟨[.key "param_block", .key "parameters", .index 0, .key "name"], .notText⟩,
       ⟨[.key "param_block", .key "parameters", .index 0, .key "extent"], .missing⟩,
       ⟨[.key "param_block", .key "parameters", .index 1], .notTable .parameterTable⟩,
       ⟨[.key "param_block", .key "attributes"], .notList⟩]
    ofData d = bad ps ∧ ¬ Conforms (.table .scriptTable) d ∧ (ps.map (·.path)).Nodup ∧
      ∀ p ∈ ps, p.LocatedIn d := by
  intro block d ps
  have h : ofData d = bad ps := by decide
  obtain ⟨hrej, hrep⟩ := Script.ofData_rejects d
  obtain ⟨-, hd, hl, -⟩ := hrep ps h
  exact ⟨h, hrej.1 ⟨ps, h⟩, hd, hl⟩

end CondParam
