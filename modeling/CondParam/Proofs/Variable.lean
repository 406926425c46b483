import CondParam.Proofs.Names
import CondParam.Proofs.Trivia
import CondParam.Script.Variable

/-!
# The grammar of parameter variables

`VariableText s name`: `s` is a variable that names the parameter `name`. `readVariable` reads
exactly these (`VariableText.readVariable`, `readVariable_ok`), where the longest name counts: what
follows must not go on with the name or make a scope of it.
-/

set_option autoImplicit false

namespace CondParam

/-- A variable and the name in it. -/
inductive VariableText : Text → Text → Prop
  | braced {name : Text} :
      .char '}' ∉ name → VariableText ('$' :: '{' :: (name ++ [.char '}'])) name
  | plain {name : Text} : name.isIdentifier = true → VariableText ('$' :: name) name
  | inScope {scope name : Text} :
      scope ≠ [] → (∀ c ∈ scope, c.isAlpha = true) → name.isIdentifier = true →
      VariableText ('$' :: (scope ++ .char ':' :: name)) name

theorem brace_notMem_of_isIdentifier {name : Text} (h : name.isIdentifier = true) :
    .char '}' ∉ name := fun hm =>
  absurd (Text.isNameChar_of_isIdentifier h _ hm) (by decide)

theorem VariableText.closing_notMem {s name : Text} (h : VariableText s name) :
    .char '}' ∉ name := by
  cases h with
  | braced hn => exact hn
  | plain hn => exact brace_notMem_of_isIdentifier hn
  | inScope _ _ hn => exact brace_notMem_of_isIdentifier hn

/-- A text that neither goes on with a name in front of it nor makes a scope of it. -/
def EndsName (r : Text) : Prop := ∀ c ∈ r.head?, isNameChar c = false ∧ c ≠ ':'

/-- Trivia ends a name. -/
theorem Trivia.endsName {wrap : Bool} {s r : Text} (h : Trivia wrap s) (hr : EndsName r) :
    EndsName (s ++ r) := by
  cases h with
  | nil => exact hr
  | space hc _ =>
    rintro d ⟨⟩
    exact ⟨isNameChar_of_isSpace hc, by rintro rfl; cases hc⟩
  | block _ _ => rintro d ⟨⟩; exact ⟨rfl, by decide⟩
  | line _ _ => rintro d ⟨⟩; exact ⟨rfl, by decide⟩
  | continued _ _ _ => rintro d ⟨⟩; exact ⟨rfl, by decide⟩

/-! ## Reading a variable -/

theorem readIdentifier?_append {name r : Text} (h : name.isIdentifier = true)
    (hr : ∀ c ∈ r.head?, isNameChar c = false) :
    readIdentifier? (name ++ r) = some ⟨name, name.length⟩ := by
  have hl : (name ++ r).identifierLength = name.length := Text.identifierLength_append h hr
  have hn : name.length ≠ 0 := fun h₀ => by
    rw [List.length_eq_zero_iff.1 h₀] at h
    cases h
  unfold readIdentifier?
  split
  · rename_i h₀
    exact absurd (hl.symm.trans h₀) hn
  · rw [hl, List.take_left]

theorem readIdentifier?_some {t : Text} {v : Read Text} (h : readIdentifier? t = some v) :
    ∃ r, t = v.value ++ r ∧ v.value.length = v.length ∧ v.value.isIdentifier = true ∧
      ∀ c ∈ r.head?, isNameChar c = false := by
  unfold readIdentifier? at h
  split at h
  · cases h
  · rename_i n hn
    cases h
    obtain ⟨name, r, rfl, hl, hi, hr⟩ := Text.identifierLength_ok hn
    rw [← hl, List.take_left]
    exact ⟨r, rfl, rfl, hi, hr⟩

/-- Behind the letters at the front of a name no colon stands. -/
theorem head?_dropWhile_isAlpha {name r : Text} (h : name.isIdentifier = true) (hr : EndsName r) :
    ((name ++ r).dropWhile CodePoint.isAlpha).head? ≠ some (.char ':') := by
  rw [List.dropWhile_append]
  split
  · intro hc
    cases r with
    | nil => cases hc
    | cons c r =>
      have ha : c.isAlpha = false := by
        cases ha : c.isAlpha with
        | false => rfl
        | true => exact (isNameChar_of_isAlpha ha).symm.trans (hr c rfl).1
      rw [List.dropWhile_cons, ha] at hc
      exact (hr c rfl).2 (by simpa using hc)
  · rename_i he
    rw [List.isEmpty_iff] at he
    obtain ⟨d, s, hd⟩ := List.exists_cons_of_ne_nil he
    rw [hd]
    have hm : d ∈ name :=
      (List.dropWhile_suffix CodePoint.isAlpha).subset (by rw [hd]; exact .head _)
    have := Text.isNameChar_of_isIdentifier h d hm
    rintro ⟨⟩
    cases this

theorem readPlainName?_plain {name r : Text} (h : name.isIdentifier = true) (hr : EndsName r) :
    readPlainName? (name ++ r) = some ⟨name, name.length⟩ := by
  have hn : ¬ ((name ++ r).takeWhile CodePoint.isAlpha ≠ [] ∧
      ((name ++ r).drop ((name ++ r).takeWhile CodePoint.isAlpha).length).head? =
        some (.char ':')) := by
    rw [Text.drop_takeWhile]
    exact fun hc => head?_dropWhile_isAlpha h hr hc.2
  simp only [readPlainName?, if_neg hn]
  exact readIdentifier?_append h fun c hc => (hr c hc).1

theorem readPlainName?_scoped {scope name r : Text} (hs : scope ≠ [])
    (ha : ∀ c ∈ scope, c.isAlpha = true) (h : name.isIdentifier = true)
    (hr : ∀ c ∈ r.head?, isNameChar c = false) :
    readPlainName? (scope ++ .char ':' :: (name ++ r)) =
      some ⟨name, (scope ++ .char ':' :: name).length⟩ := by
  have ht : (scope ++ .char ':' :: (name ++ r)).takeWhile CodePoint.isAlpha = scope :=
    Text.takeWhile_append_stop ha (by simp)
  simp only [readPlainName?, ht, List.drop_left, List.head?_cons, and_true, hs, ne_eq,
    not_false_eq_true, if_true]
  have hd : (scope ++ .char ':' :: (name ++ r)).drop (scope.length + 1) = name ++ r := by
    rw [← List.drop_drop, List.drop_left]; rfl
  rw [hd, readIdentifier?_append h hr]
  simp [Read.plus]
  omega

theorem readPlainName?_some {t : Text} {v : Read Text} (h : readPlainName? t = some v) :
    ∃ s r, t = s ++ r ∧ s.length = v.length ∧ VariableText ('$' :: s) v.value := by
  have plain : readIdentifier? t = some v →
      ∃ s r, t = s ++ r ∧ s.length = v.length ∧ VariableText ('$' :: s) v.value := fun h => by
    obtain ⟨r, hr, hl, hi, -⟩ := readIdentifier?_some h
    exact ⟨v.value, r, hr, hl, .plain hi⟩
  unfold readPlainName? at h
  simp only at h
  split at h
  · rename_i hc
    obtain ⟨hs, hd⟩ := hc
    have ha : ∀ c ∈ t.takeWhile CodePoint.isAlpha, c.isAlpha = true :=
      fun c hm => List.mem_takeWhile_imp hm
    have ht : t = t.takeWhile CodePoint.isAlpha ++ t.dropWhile CodePoint.isAlpha :=
      List.takeWhile_append_dropWhile.symm
    rw [Text.drop_takeWhile] at hd
    generalize t.takeWhile CodePoint.isAlpha = scope at *
    generalize t.dropWhile CodePoint.isAlpha = rest at *
    subst ht
    cases rest with
    | nil => cases hd
    | cons c rest =>
      cases hd
      have hr : (scope ++ .char ':' :: rest).drop (scope.length + 1) = rest := by
        rw [← List.drop_drop, List.drop_left]; rfl
      rw [hr] at h
      cases hu : readIdentifier? rest with
      | none => rw [hu] at h; exact plain h
      | some u =>
        rw [hu] at h
        cases h
        obtain ⟨r, rfl, hl, hi, -⟩ := readIdentifier?_some hu
        exact ⟨scope ++ .char ':' :: u.value, r, by simp, by simp [Read.plus, hl]; omega,
          .inScope hs ha hi⟩
  · exact plain h

theorem readVariable_name {cs : Text} {v : Read Text} (hb : cs.head? ≠ some (.char '{'))
    (h : readPlainName? cs = some v) : readVariable ('$' :: cs) = .ok (v.plus 1) := by
  unfold readVariable
  split
  · rename_i hc
    cases hc
    exact absurd rfl hb
  · rename_i hc
    cases hc
    rw [h]
  · rename_i hn
    exact absurd rfl (hn cs)

/-- Between braces the name ends at the first closing one, whatever follows it. -/
theorem readVariable_braced {name : Text} (h : .char '}' ∉ name) (r : Text) :
    readVariable ('$' :: '{' :: (name ++ .char '}' :: r)) = .ok ⟨name, name.length + 3⟩ := by
  have ht := (UpTo.single h).through r
  rw [List.append_assoc, List.singleton_append] at ht
  rw [readVariable, ht]
  simp

/-- **A variable is read up to its end** if what follows does not go on with it. -/
theorem VariableText.readVariable {s name r : Text} (h : VariableText s name) (hr : EndsName r) :
    readVariable (s ++ r) = .ok ⟨name, s.length⟩ := by
  cases h with
  | braced hn =>
    have he : .char '$' :: .char '{' :: (name ++ [.char '}']) ++ r =
        .char '$' :: .char '{' :: (name ++ .char '}' :: r) := by simp
    rw [he, readVariable_braced hn]
    simp
  | plain hi =>
    obtain ⟨c, s, rfl, hc, hs⟩ := Text.exists_of_isIdentifier hi
    have hb : (c :: s ++ r).head? ≠ some (.char '{') := by
      rintro ⟨⟩
      cases hc
    exact readVariable_name hb (readPlainName?_plain hi hr)
  | @inScope scope _ hs ha hi =>
    obtain ⟨c, s, rfl⟩ := List.exists_cons_of_ne_nil hs
    have hb : (c :: s ++ .char ':' :: (name ++ r)).head? ≠ some (.char '{') := by
      rintro ⟨⟩
      cases ha _ (.head _)
    have he : .char '$' :: (c :: s ++ .char ':' :: name) ++ r =
        .char '$' :: (c :: s ++ .char ':' :: (name ++ r)) := by simp
    rw [he]
    exact readVariable_name hb (readPlainName?_scoped hs ha hi fun c hc => (hr c hc).1)

/-- **What was read is a variable.** -/
theorem readVariable_ok {t : Text} {v : Read Text} (h : readVariable t = .ok v) :
    ∃ s r, t = s ++ r ∧ s.length = v.length ∧ VariableText s v.value := by
  unfold readVariable at h
  split at h
  · rename_i cs
    split at h
    · rename_i n hn
      cases h
      obtain ⟨s, r, rfl, rfl, hs⟩ := through_some hn
      obtain ⟨name, rfl, hname⟩ := hs.exists_single
      refine ⟨.char '$' :: .char '{' :: (name ++ [.char '}']), r, rfl, rfl, ?_⟩
      rw [List.append_assoc, List.length_append, List.length_singleton, Nat.add_sub_cancel,
        List.take_left]
      exact .braced hname
    · cases h
  · rename_i cs _
    split at h
    · rename_i v hv
      cases h
      obtain ⟨s, r, rfl, hl, hs⟩ := readPlainName?_some hv
      exact ⟨.char '$' :: s, r, rfl, by simp [Read.plus, hl], hs⟩
    · cases h
  · cases h

end CondParam
