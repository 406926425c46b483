import CondParam.Proofs.Regeneration
import CondParam.Proofs.StableSort
import CondParam.Proofs.WrittenName

/-!
# The dump

The dump lists the names of the conditional parameters with their values, one row for each. The
names come sorted by code points (`Text.le_iff`), so it does not matter in which order they were
declared (`sortBy_eq_of_perm`). Keys are filled up to the longest one, which puts the signs between
keys and values one below the other (`drop_dumpRow`), and no two names share a key
(`hashtableKey_injective`).
-/

set_option autoImplicit false

namespace CondParam

/-! ## Order -/

/-- The order by code points is the lexicographic order of their numbers. -/
theorem Text.le_iff {s t : Text} :
    s.le t = true ↔
      s = t ∨ List.Lex (· < ·) (s.map CodePoint.toNat) (t.map CodePoint.toNat) := by
  induction s generalizing t with
  | nil =>
    cases t with
    | nil => simp [Text.le]
    | cons d t => simp only [Text.le, List.map_nil, List.map_cons, true_iff]; exact .inr .nil
  | cons c s ih =>
    cases t with
    | nil => simp [Text.le]
    | cons d t =>
      simp only [Text.le, Bool.or_eq_true, decide_eq_true_eq, Bool.and_eq_true, beq_iff_eq, ih,
        List.map_cons, List.cons_lex_cons_iff, CodePoint.toNat_inj, List.cons.injEq]
      constructor
      · rintro (h | ⟨hc, hs | h⟩)
        · exact .inr (.inl h)
        · exact .inl ⟨hc, hs⟩
        · exact .inr (.inr ⟨hc, h⟩)
      · rintro (⟨hc, hs⟩ | h | ⟨hc, h⟩)
        · exact .inr ⟨hc, .inl hs⟩
        · exact .inl h
        · exact .inr ⟨hc, .inr h⟩

theorem sortBy_pairwise (names : List Text) :
    (sortBy Text.le id false names).Pairwise fun s t => s.le t = true :=
  keysInOrder_map.1 (keysInOrder_sortBy keyOrder_text id false names)

/-- Names have only one sorted order. -/
theorem eq_sortBy {sorted names : List Text} (hp : sorted.Perm names)
    (hs : sorted.Pairwise fun s t => s.le t = true) : sorted = sortBy Text.le id false names :=
  List.Perm.eq_of_pairwise (fun _ _ _ _ => Text.le_antisymm) hs (sortBy_pairwise names)
    (hp.trans (sortBy_perm Text.le id false names).symm)

/-- **Sorting forgets the order.** -/
theorem sortBy_eq_of_perm {names names' : List Text} (h : names'.Perm names) :
    sortBy Text.le id false names' = sortBy Text.le id false names :=
  eq_sortBy ((sortBy_perm Text.le id false names').trans h) (sortBy_pairwise names')

/-! ## Keys -/

/-- A name that is written without quotes does not start with one. -/
theorem head?_of_isSimpleName {name : Text} (h : isSimpleName name = true) :
    name.head? ≠ some (.char '\x27') := by
  have hi {t : Text} (ht : t.isIdentifier = true) : t.head? ≠ some (.char '\x27') := by
    obtain ⟨c, s, rfl, hc, -⟩ := Text.exists_of_isIdentifier ht
    rintro ⟨⟩
    cases hc
  obtain ⟨s, hs, rfl | rfl⟩ := isSimpleName_iff.1 h
  · exact hi hs
  · have hh := hi hs
    obtain ⟨c, s, rfl, -⟩ := Text.exists_of_isIdentifier hs
    exact hh

/-- **Distinct names have distinct keys.** -/
theorem hashtableKey_injective : Function.Injective hashtableKey := by
  have hq {s t : Text} (hs : isSimpleName s = true) : s ≠ nameLiteral t := by
    rintro rfl
    exact head?_of_isSimpleName hs rfl
  intro s t h
  unfold hashtableKey at h
  split at h <;> split at h
  · exact h
  · rename_i hs _
    exact absurd h (hq hs)
  · rename_i _ ht
    exact absurd h.symm (hq ht)
  · exact nameLiteral_injective h

/-! ## Rows -/

/-- The length of a name's key. -/
def keyLength (name : Text) : Nat := (hashtableKey name).length

/-- The row of a name where keys are `width` characters long. -/
def dumpRow (width : Nat) (name : Text) : Text :=
  .concat ["            ", hashtableKey name,
    List.replicate (width - keyLength name) (.char ' '), " = ", variableRef name]

/-- The lengths have a greatest one. -/
theorem max?_eq_foldl {ns : List Nat} (h : ns ≠ []) : ns.max? = some (ns.foldl max 0) := by
  cases ns with
  | nil => exact absurd rfl h
  | cons n ns => rw [List.max?_cons', List.foldl_cons, Nat.zero_max]

theorem dumpRows_eq (names : List Text) :
    dumpRows names = names.map (dumpRow ((names.map keyLength).foldl max 0)) := by
  refine List.map_congr_left fun n _ => ?_
  simp only [Text.padRight, Text.concat_cons, List.append_assoc]
  rfl

/-- **The sign stands at the same place in every row** whose key is not too long. -/
theorem drop_dumpRow {width : Nat} {name : Text} (h : keyLength name ≤ width) :
    (dumpRow width name).drop (12 + width) = (" = " : Text) ++ variableRef name := by
  let lead : Text := ("            " : Text) ++ (hashtableKey name ++
    List.replicate (width - keyLength name) (.char ' '))
  have hl : lead.length = 12 + width := by
    have hb : ("            " : Text).length = 12 := rfl
    have hk : (hashtableKey name).length = keyLength name := rfl
    rw [List.length_append, List.length_append, List.length_replicate]
    omega
  have hr : dumpRow width name = lead ++ ((" = " : Text) ++ variableRef name) := by
    simp [dumpRow, lead]
  rw [hr, ← hl, List.drop_left]

/-- The lines of a dump: a header, the rows of the sorted names, and a footer. `width` is the length
of the longest key. -/
structure IsDump (stream : Stream) (names sorted : List Text) (width : Nat) (lines : List Text) :
    Prop where
  perm : sorted.Perm names
  increasing : sorted.Pairwise fun s t =>
    s = t ∨ List.Lex (· < ·) (s.map CodePoint.toNat) (t.map CodePoint.toNat)
  longest : width ∈ names.map keyLength ∧ ∀ n ∈ names, keyLength n ≤ width
  lines_eq : lines =
    [.concat ["        Write-", stream.name, " -Message ([pscustomobject]@\x7b"]] ++
      sorted.map (dumpRow width) ++ [("        \x7d | Format-List | Out-String)" : Text)]
  aligned : ∀ n ∈ sorted, (dumpRow width n).drop (12 + width) = (" = " : Text) ++ variableRef n

/-- **Sorted names are dumped** in rows that are as wide as they have to be. -/
theorem isDump_dumpLines (stream : Stream) {names : List Text} (h : names ≠ []) :
    ∃ width, IsDump stream names (sortBy Text.le id false names) width
      (dumpLines stream (sortBy Text.le id false names)) := by
  let sorted := sortBy Text.le id false names
  have hp : sorted.Perm names := sortBy_perm Text.le id false names
  have hne : sorted.map keyLength ≠ [] := by
    rw [Ne, List.map_eq_nil_iff]
    intro he
    rw [he] at hp
    exact h hp.nil_eq.symm
  obtain ⟨hw, hle⟩ := List.max?_eq_some_iff.1 (max?_eq_foldl hne)
  have hlong : ∀ n ∈ sorted, keyLength n ≤ (sorted.map keyLength).foldl max 0 := fun n hn =>
    hle _ (List.mem_map_of_mem hn)
  exact ⟨_, {
    perm := hp
    increasing := (sortBy_pairwise names).imp Text.le_iff.1
    longest := ⟨(hp.map keyLength).mem_iff.1 hw, fun n hn => hlong n (hp.mem_iff.2 hn)⟩
    lines_eq := by rw [dumpLines, dumpRows_eq]; rfl
    aligned := fun n hn => drop_dumpRow (hlong n hn) }⟩

/-! ## The region -/

section
variable (stream : Stream) (report : Report) {k : Classification}

theorem diagnostics_emit_of_nil (h : k.dynamic = []) :
    (emit stream report k).diagnostics = [] := by
  rw [diagnostics_emit, Classification.fragments, h]
  rfl

theorem diagnostics_emit_of_ne_nil (h : k.dynamic ≠ []) :
    (emit stream report k).diagnostics =
      dumpLines stream (sortBy Text.le id false (k.dynamic.map (·.name))) := by
  rw [diagnostics_emit, Classification.fragments, if_neg (by simpa using h)]

theorem render_emit_diagnostics_ne_nil (h : k.dynamic ≠ []) :
    (emit stream report k).render .diagnostics ≠ [] := by
  have hr : (emit stream report k).render .diagnostics =
      .join "\n" (emit stream report k).diagnostics := rfl
  rw [hr, diagnostics_emit_of_ne_nil stream report h]
  exact List.ne_nil_of_mem (Text.mem_join (c := .char ' ') (.head _))

end

theorem diagnostics_emit_of_perm (stream : Stream) (report report' : Report)
    {k k' : Classification} (h : k'.dynamic.Perm k.dynamic) :
    (emit stream report' k').diagnostics = (emit stream report k).diagnostics := by
  by_cases hk : k.dynamic = []
  · have hk' : k'.dynamic = [] := (hk ▸ h).eq_nil
    rw [diagnostics_emit_of_nil _ _ hk, diagnostics_emit_of_nil _ _ hk']
  · have hk' : k'.dynamic ≠ [] := fun h₀ => hk (h₀ ▸ h).nil_eq.symm
    rw [diagnostics_emit_of_ne_nil _ _ hk, diagnostics_emit_of_ne_nil _ _ hk',
      sortBy_eq_of_perm (h.map _)]

/-- **The dump is sorted, complete, aligned and blind to the order of the declarations.** -/
theorem emit_dump (stream : Stream) (report : Report) (k : Classification) :
    let e := emit stream report k
    (e.diagnostics = [] ↔ k.dynamic = []) ∧
    (e.render .diagnostics = [] ↔ k.dynamic = []) ∧
    (k.dynamic ≠ [] → ∃ sorted width,
      IsDump stream (k.dynamic.map (·.name)) sorted width e.diagnostics) ∧
    Function.Injective hashtableKey ∧
    ∀ (report' : Report) (k' : Classification), k'.dynamic.Perm k.dynamic →
      (emit stream report' k').diagnostics = e.diagnostics ∧
        (emit stream report' k').render .diagnostics = e.render .diagnostics := by
  intro e
  have hdump (h : k.dynamic ≠ []) : ∃ sorted width,
      IsDump stream (k.dynamic.map (·.name)) sorted width e.diagnostics := by
    rw [show e.diagnostics = _ from diagnostics_emit_of_ne_nil stream report h]
    exact ⟨_, isDump_dumpLines stream (mt List.map_eq_nil_iff.1 h)⟩
  have hnil (h : k.dynamic = []) : e.diagnostics = [] := diagnostics_emit_of_nil stream report h
  refine ⟨⟨fun he => ?_, hnil⟩, ⟨fun he => ?_, fun h => congrArg (Text.join _) (hnil h)⟩,
    hdump, hashtableKey_injective, fun report' k' h => ?_⟩
  · by_contra h
    obtain ⟨sorted, width, hd⟩ := hdump h
    rw [hd.lines_eq] at he
    cases he
  · by_contra h
    exact render_emit_diagnostics_ne_nil stream report h he
  · have hp := diagnostics_emit_of_perm stream report report' h
    exact ⟨hp, congrArg (Text.join _) hp⟩

/-- Names that need quotes, one with a quote in it, and one that comes twice. -/
theorem emit_dump_swapped :
    let a : Conditional := { name := "it's", condition := [], resolvedType := "int" }
    let b : Conditional := { name := "B", condition := "$x", resolvedType := "int" }
    let k : Classification := { dynamic := [a, b, b] }
    let k' : Classification := { dynamic := [b, a, b] }
    let lines : List Text :=
      ["        Write-Debug -Message ([pscustomobject]@\x7b",
       "            B       = $B", "            B       = $B",
       "            'it''s' = $\x7bit's\x7d",
       "        \x7d | Format-List | Out-String)"]
    k'.dynamic.Perm k.dynamic ∧ (emit .debug {} k).diagnostics = lines ∧
      (emit .debug {} k').diagnostics = lines := by
  intro a b k k' lines
  have hp : k'.dynamic.Perm k.dynamic := List.Perm.swap a b [b]
  have hs : [b.name, b.name, a.name] = sortBy Text.le id false (k.dynamic.map (·.name)) :=
    eq_sortBy (by decide) (by decide)
  have hl : (emit .debug {} k).diagnostics = lines := by
    rw [diagnostics_emit_of_ne_nil _ _ (by decide), ← hs]
    decide +kernel
  exact ⟨hp, hl, ((emit_dump .debug {} k).2.2.2.2 {} k' hp).1.trans hl⟩

end CondParam
