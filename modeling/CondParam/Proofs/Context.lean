import CondParam.Proofs.Lossless
import CondParam.Proofs.Outcome

/-!
# Reading in context

What is read does not depend on what stands around it. Trivia in front of a text moves the places of
its faults and changes nothing else (`Script.read_trivia`, `Fault.position_append`). Behind the
parenthesis that closes a block nothing is looked at (`Script.read_cut`): each scanner that comes to
its end before that parenthesis gives the same answer on `u ++ r` and on `u ++ r'`, where `u` holds
the parenthesis.
-/

set_option autoImplicit false

namespace CondParam

/-! ## Trivia in front -/

section
variable {old : List Text} {d : Bool} {s r : Text}

theorem locateFrom_comment (h : Lexeme true .comment s r) :
    locateFrom old d (s ++ r) = locateFrom old false r := by
  obtain ⟨c, s, rfl⟩ := List.exists_cons_of_ne_nil h.ne_nil
  rw [List.cons_append, locateFrom, h.next]
  simp only [List.drop_left]

theorem locateFrom_string (h : Lexeme true .string s r) :
    locateFrom old d (s ++ r) = locateFrom [] false r := by
  obtain ⟨c, s, rfl⟩ := List.exists_cons_of_ne_nil h.ne_nil
  rw [List.cons_append, locateFrom, h.next]
  simp only [List.drop_left]

theorem locateFrom_escape {e : Option CodePoint} (h : Lexeme true (.escape e) s r) :
    locateFrom old d (s ++ r) = locateFrom [] (e == some (.char '.')) r := by
  obtain ⟨c, s, rfl⟩ := List.exists_cons_of_ne_nil h.ne_nil
  rw [List.cons_append, locateFrom, h.next]
  simp only [List.drop_left]
  rfl

end

/-- Trivia is skipped. White space and comments keep the attributes before them; a line that is
continued drops them. -/
theorem locateFrom_keeps {w : Text} (hw : Trivia true w) :
    ∃ keeps : Bool, (keeps = true ↔ Trivia false w) ∧ ∀ old t,
      locateFrom old false (w ++ t) = locateFrom (if keeps then old else []) false t := by
  induction hw with
  | nil => exact ⟨true, ⟨fun _ => .nil, fun _ => rfl⟩, fun _ _ => rfl⟩
  | @space c w hc _ ih =>
    obtain ⟨keeps, hk, hl⟩ := ih
    refine ⟨keeps, hk.trans ⟨.space hc, (·.tail hc)⟩, fun old t => ?_⟩
    rw [List.cons_append, locateFrom_space hc, hl]
  | @block s w hs _ ih =>
    obtain ⟨keeps, hk, hl⟩ := ih
    refine ⟨keeps, hk.trans ⟨.block hs, .of_block hs⟩, fun old t => ?_⟩
    have hc : Lexeme true .comment ('<' :: '#' :: s) (w ++ t) := .block hs
    have he : .char '<' :: .char '#' :: (s ++ w) ++ t =
        .char '<' :: .char '#' :: s ++ (w ++ t) := by simp
    rw [he, locateFrom_comment hc, hl]
  | @line s w hs _ ih =>
    obtain ⟨keeps, hk, hl⟩ := ih
    refine ⟨keeps, hk.trans ⟨.line hs, .of_line hs⟩, fun old t => ?_⟩
    have hc : Lexeme true .comment ('#' :: s) (.char '\n' :: (w ++ t)) := .line rfl hs (.inr rfl)
    have he : .char '#' :: (s ++ .char '\n' :: w) ++ t =
        .char '#' :: s ++ .char '\n' :: (w ++ t) := by simp
    rw [he, locateFrom_comment hc, locateFrom_space rfl, hl]
  | @continued c w _ hc _ ih =>
    obtain ⟨keeps, -, hl⟩ := ih
    refine ⟨false, ⟨nofun, fun hf => ?_⟩, fun old t => ?_⟩
    · cases hf with
      | space hs _ => cases hs
      | continued hf _ _ => cases hf
    · have hx : Lexeme true (.escape (some c)) [backtick, c] (w ++ t) := .escape
      have hd : (some c == some (.char '.')) = false := by rcases hc with rfl | rfl <;> rfl
      have he : backtick :: c :: w ++ t = [backtick, c] ++ (w ++ t) := rfl
      rw [he, locateFrom_escape hx, hd, hl, ite_self]
      rfl

/-- Trivia before everything else is skipped. -/
theorem locateFrom_trivia {p : Text} (hp : Trivia true p) (t : Text) :
    locateFrom [] false (p ++ t) = locateFrom [] false t := by
  obtain ⟨keeps, -, hl⟩ := locateFrom_keeps hp
  rw [hl, ite_self]

/-- **Trivia in front of a text changes nothing**, faults included: their places are counted from
the end of the text. -/
theorem Script.read_trivia {p : Text} (hp : Trivia true p) (t : Text) :
    Script.read (p ++ t) = Script.read t := by
  unfold Script.read locateBlock
  rw [locateFrom_trivia hp]

/-- Full lines before a place count for its line only. -/
theorem Position.after_append {p : Text} (hp : p = [] ∨ [.char '\n'] <:+ p) (s : Text) :
    Position.after (p ++ s) =
      { line := (Position.after s).line + p.count (.char '\n'),
        column := (Position.after s).column } := by
  have hcolumn : (p ++ s).reverse.takeWhile (· ≠ .char '\n') =
      s.reverse.takeWhile (· ≠ .char '\n') := by
    rcases hp with rfl | ⟨p, rfl⟩
    · rfl
    · rw [List.append_assoc, List.reverse_append, List.reverse_append, List.append_assoc]
      exact takeWhile_append_cons (by decide) _ _
  unfold Position.after
  rw [hcolumn, List.count_append]
  simp only [Position.mk.injEq, and_true]
  omega

theorem Fault.position_append {p t : Text} {f : Fault} (hp : p = [] ∨ [.char '\n'] <:+ p)
    (hf : f.left ≤ t.length) :
    f.position (p ++ t) =
      { line := (f.position t).line + p.count (.char '\n'), column := (f.position t).column } := by
  have ht : (p ++ t).take ((p ++ t).length - f.left) = p ++ t.take (t.length - f.left) := by
    rw [List.length_append, Nat.add_sub_assoc hf, List.take_length_add_append]
  unfold Fault.position
  rw [ht, Position.after_append hp]

/-! ## What a scanner depends on -/

theorem exists_of_append_eq {u r s v : Text} (h : u ++ r = s ++ v) (hl : s.length ≤ u.length) :
    ∃ u', u = s ++ u' ∧ v = u' ++ r := by
  obtain ⟨u', rfl⟩ := List.prefix_of_prefix_length_le (List.prefix_append s v)
    (h ▸ List.prefix_append u r) hl
  rw [List.append_assoc] at h
  exact ⟨u', rfl, (List.append_cancel_left h).symm⟩

theorem lt_length_of_mem_drop {c : CodePoint} {u : Text} {n : Nat} (h : c ∈ u.drop n) :
    n < u.length := by
  have hl := List.length_pos_of_mem h
  rw [List.length_drop] at hl
  omega

theorem mem_drop_of_le {c : CodePoint} {u : Text} {m n : Nat} (h : c ∈ u.drop n) (hm : m ≤ n) :
    c ∈ u.drop m := by
  obtain ⟨k, rfl⟩ := Nat.exists_eq_add_of_le hm
  rw [← List.drop_drop] at h
  exact List.mem_of_mem_drop h

theorem drop_append_of_mem {c : CodePoint} {u : Text} {n : Nat} (h : c ∈ u.drop n) (r : Text) :
    (u ++ r).drop n = u.drop n ++ r :=
  List.drop_append_of_le_length (Nat.le_of_lt (lt_length_of_mem_drop h))

theorem head?_append_of_mem {c : CodePoint} {u : Text} (h : c ∈ u) (r : Text) :
    (u ++ r).head? = u.head? := by
  cases u with
  | nil => cases h
  | cons d u => rfl

/-- A lexeme is the same before another text, if a character that no quote takes along stands
between. -/
theorem Lexeme.replace {fresh : Bool} {item : Item} {c : CodePoint} {s u r : Text}
    (h : Lexeme fresh item s (u ++ r)) (hc : c ∈ u) (hq : isQuote c = false)
    (hs : isSpace c = false) (r' : Text) : Lexeme fresh item s (u ++ r') := by
  have hne : u ≠ [] := List.ne_nil_of_mem hc
  refine (h.restrict hne ?_).append r' hne
  intro q v hu hv
  subst hu
  rcases List.mem_cons.1 hc with rfl | hc
  · rw [hq] at hv
    cases hv
  · exact ⟨c, hc, hs⟩

section
variable {u r : Text}

theorem triviaLength_eq_zero_local (h : triviaLength (u ++ r) = .ok 0) (hc : .char ')' ∈ u)
    (r' : Text) : triviaLength (u ++ r') = .ok 0 := by
  match u with
  | [] => cases hc
  | [c] =>
    obtain rfl : .char ')' = c := by simpa using hc
    exact triviaLength_stop (.inr rfl)
  | c :: d :: u =>
    exact triviaLength_cons_eq_zero.2 (triviaLength_cons_eq_zero (r := d :: u ++ r).1 h)

/-- Trivia before the closing parenthesis ends where it ends, whatever follows. -/
theorem triviaLength_local {n : Nat} (h : triviaLength (u ++ r) = .ok n)
    (hc : .char ')' ∈ u.drop n) (r' : Text) : triviaLength (u ++ r') = .ok n := by
  have hl := lt_length_of_mem_drop hc
  obtain ⟨w, v, he, rfl, h₀, hw⟩ := triviaLength_ok h
  obtain ⟨u, rfl, rfl⟩ := exists_of_append_eq he (Nat.le_of_lt hl)
  rw [List.drop_left] at hc
  have hne : u ++ r ≠ [] := List.append_ne_nil_of_left_ne_nil (List.ne_nil_of_mem hc) _
  rw [List.append_assoc]
  exact (hw hne).triviaLength_eq (triviaLength_eq_zero_local h₀ hc r')

end

theorem text_le_stop {fresh : Bool} {t : Text} {reach : Reach}
    (h : expressionReach fresh t = .ok reach) : reach.text ≤ reach.stop := by
  replace h := expressionReach_eq_ok_iff.1 h
  induction h with
  | done => exact Nat.le_refl _
  | stop _ => exact Nat.le_refl _
  | item _ _ _ _ ih =>
    unfold Item.extend
    split
    · simp only [Reach.afterTrivia]
      split <;> omega
    · exact Nat.add_le_add_right ih _
  | group _ _ ih => exact Nat.add_le_add_right ih _

/-- An expression before the closing parenthesis ends where it ends, whatever follows. -/
theorem expressionReach_local {fresh : Bool} {u r : Text} {reach : Reach}
    (h : expressionReach fresh (u ++ r) = .ok reach) (hc : .char ')' ∈ u.drop reach.stop)
    (r' : Text) : expressionReach fresh (u ++ r') = .ok reach := by
  replace h := expressionReach_eq_ok_iff.1 h
  refine expressionReach_eq_ok_iff.2 ?_
  generalize ht : u ++ r = t at h
  induction h generalizing u with
  | done =>
    obtain ⟨rfl, -⟩ := List.append_eq_nil_iff.1 ht
    simp at hc
  | @stop _ c cs hcs =>
    obtain ⟨u, rfl, -⟩ := exists_of_append_eq (s := [c]) ht (List.length_pos_of_mem hc)
    exact .stop hcs
  | @item _ item s v reach hs hb hne _ ih =>
    rw [Item.stop_extend] at hc
    have hl := lt_length_of_mem_drop hc
    obtain ⟨u, rfl, rfl⟩ := exists_of_append_eq ht (by omega)
    rw [Nat.add_comm, ← List.drop_drop, List.drop_left] at hc
    rw [List.append_assoc]
    exact .item (hs.replace (List.mem_of_mem_drop hc) rfl rfl r') hb hne (ih hc rfl)
  | @group _ b g v reach hg _ ih =>
    have hl := lt_length_of_mem_drop hc
    obtain ⟨u, rfl, rfl⟩ := exists_of_append_eq (s := b.opening :: g) ht
      (by simp only [Reach.afterText] at hl; simp only [List.length_cons]; omega)
    have hd : (b.opening :: g ++ u).drop (reach.stop + (g.length + 1)) = u.drop reach.stop := by
      rw [Nat.add_comm, ← List.drop_drop]
      exact congrArg _ List.drop_left
    rw [List.append_assoc]
    exact .group hg (ih (hd ▸ hc) rfl)

/-! ## What a reader depends on -/

section
variable {u r : Text}

theorem readAnnotations_local {v : Read (List Annotation)}
    (h : readAnnotations (u ++ r) = .ok v) (hd : (u.drop v.length).head? = some (.char '$'))
    (r' : Text) : readAnnotations (u ++ r') = .ok v := by
  obtain ⟨x, hx⟩ := List.head?_eq_some_iff.1 hd
  have hl := lt_length_of_mem_drop (hx ▸ List.mem_cons_self : CodePoint.char '$' ∈ u.drop v.length)
  obtain ⟨s, w, he, hs, hv⟩ := readAnnotations_ok h
  obtain ⟨u, rfl, rfl⟩ := exists_of_append_eq he (by omega)
  rw [← hs, List.drop_left] at hd
  have hne : u ++ r ≠ [] := by
    intro h₀
    rw [(List.append_eq_nil_iff.1 h₀).1] at hd
    cases hd
  have hh : (u ++ r').head? = some (.char '$') := by rw [List.head?_append, hd]; rfl
  rw [List.append_assoc, (hv hne).readAnnotations hh, hs]

/-- A name ends before the parenthesis. -/
theorem identifierLength_append_of_mem (hc : .char ')' ∈ u) (r : Text) :
    (u ++ r).identifierLength = u.identifierLength := by
  cases u with
  | nil => cases hc
  | cons c u =>
    rw [List.cons_append, Text.identifierLength, Text.identifierLength]
    by_cases hs : isNameStart c = true
    · have hu : .char ')' ∈ u := by
        rcases List.mem_cons.1 hc with rfl | hc
        · cases hs
        · exact hc
      rw [if_pos hs, if_pos hs, takeWhile_append_of_mem r hu rfl]
    · rw [if_neg hs, if_neg hs]

theorem readIdentifier?_append_of_mem (hc : .char ')' ∈ u) (r : Text) :
    readIdentifier? (u ++ r) = readIdentifier? u := by
  unfold readIdentifier?
  rw [identifierLength_append_of_mem hc]
  split
  · rfl
  · rename_i n hn
    obtain ⟨name, v, rfl, hl, -⟩ := Text.identifierLength_ok hn
    rw [← hl, List.append_assoc, List.take_left, List.take_left]

theorem readPlainName?_append_of_mem (hc : .char ')' ∈ u) (r : Text) :
    readPlainName? (u ++ r) = readPlainName? u := by
  have hs : (u ++ r).takeWhile CodePoint.isAlpha = u.takeWhile CodePoint.isAlpha :=
    takeWhile_append_of_mem r hc rfl
  have hm : .char ')' ∈ u.drop (u.takeWhile CodePoint.isAlpha).length := by
    rw [Text.drop_takeWhile]
    rw [← List.takeWhile_append_dropWhile (p := CodePoint.isAlpha) (l := u)] at hc
    rcases List.mem_append.1 hc with hc | hc
    · cases List.mem_takeWhile_imp hc
    · exact hc
  simp only [readPlainName?, hs, readIdentifier?_append_of_mem hc]
  generalize u.takeWhile CodePoint.isAlpha = scope at hm
  rw [drop_append_of_mem hm, head?_append_of_mem hm]
  by_cases hd : scope ≠ [] ∧ (u.drop scope.length).head? = some (.char ':')
  · obtain ⟨v, hv⟩ := List.head?_eq_some_iff.1 hd.2
    have hn : .char ')' ∈ u.drop (scope.length + 1) := by
      rw [← List.drop_drop, hv]
      rw [hv] at hm
      simpa using hm
    rw [if_pos hd, if_pos hd, drop_append_of_mem hn, readIdentifier?_append_of_mem hn]
  · rw [if_neg hd, if_neg hd]

/-- A variable before the closing parenthesis is read up to its end, whatever follows. -/
theorem readVariable_local {v : Read Text} (h : readVariable (u ++ r) = .ok v)
    (hc : .char ')' ∈ u.drop v.length) (r' : Text) : readVariable (u ++ r') = .ok v := by
  have hl := lt_length_of_mem_drop hc
  unfold readVariable at h
  split at h
  · rename_i cs he
    split at h
    · rename_i n hn
      cases h
      obtain ⟨s, w, rfl, rfl, hs⟩ := through_some hn
      obtain ⟨u, rfl, rfl⟩ := exists_of_append_eq (s := .char '$' :: .char '{' :: s) he
        (Nat.le_of_lt hl)
      have ht : ∀ x : Text, (s ++ x).take (s.length - 1) = s.take (s.length - 1) := fun x =>
        List.take_append_of_le_length (Nat.sub_le _ _)
      rw [List.append_assoc, List.cons_append, List.cons_append, readVariable, hs.through]
      simp only [ht]
    · cases h
  · rename_i cs hb he
    split at h
    · rename_i w hw
      cases h
      obtain ⟨u, rfl, rfl⟩ := exists_of_append_eq (s := [.char '$']) he
        (Nat.le_of_lt (Nat.lt_of_le_of_lt (Nat.le_add_left 1 _) hl))
      have hm : .char ')' ∈ u := List.mem_of_mem_drop (hc : .char ')' ∈ u.drop w.length)
      have hh : (u ++ r').head? ≠ some (.char '{') := by
        rw [head?_append_of_mem hm, ← head?_append_of_mem hm r]
        intro hh
        obtain ⟨x, hx⟩ := List.head?_eq_some_iff.1 hh
        exact hb x hx
      rw [readPlainName?_append_of_mem hm, ← readPlainName?_append_of_mem hm r'] at hw
      exact readVariable_name hh hw
    · cases h
  · cases h

/-- A default before the closing parenthesis is read up to its end, whatever follows. -/
theorem readDefault_local {name : Text} {n : Nat} {as : List Annotation} {v : Read Parameter}
    (h : readDefault (u ++ r) n name as = .ok v) (hc : .char ')' ∈ u.drop v.length) (r' : Text) :
    readDefault (u ++ r') n name as = .ok v := by
  have ht : ∀ m x, m ≤ v.length → (u ++ x).take m = u.take m := fun m x hm =>
    List.take_append_of_le_length (Nat.le_of_lt (Nat.lt_of_le_of_lt hm (lt_length_of_mem_drop hc)))
  obtain ⟨k, hk, h⟩ := readDefault_eq_ok_iff.1 h
  refine readDefault_eq_ok_iff.2 ⟨k, ?_⟩
  rcases h with ⟨he, rfl⟩ | ⟨m, reach, he, hm, hr, hne, rfl⟩
  · replace hc : .char ')' ∈ u.drop (n + k) := hc
    have hn := mem_drop_of_le hc (Nat.le_add_right n k)
    rw [drop_append_of_mem hn] at hk ⊢
    rw [drop_append_of_mem hc, head?_append_of_mem hc] at he ⊢
    rw [ht n r (Nat.le_add_right n k), ht n r' (Nat.le_add_right n k)]
    exact ⟨triviaLength_local hk (by rwa [List.drop_drop]) r', .inl ⟨he, rfl⟩⟩
  · replace hc : .char ')' ∈ u.drop (n + k + 1 + m + reach.stop) := hc
    have h₄ : .char ')' ∈ u.drop (n + k + 1 + m) := mem_drop_of_le hc (by omega)
    have h₃ : .char ')' ∈ u.drop (n + k + 1) := mem_drop_of_le hc (by omega)
    have h₂ : .char ')' ∈ u.drop (n + k) := mem_drop_of_le hc (by omega)
    have h₁ : .char ')' ∈ u.drop n := mem_drop_of_le hc (by omega)
    have hw := text_le_stop hr
    have hl : reach.text ≤ (u.drop (n + k + 1 + m)).length := by
      have := lt_length_of_mem_drop hc
      rw [List.length_drop]
      omega
    rw [drop_append_of_mem h₁] at hk
    rw [drop_append_of_mem h₂, head?_append_of_mem h₂] at he
    rw [drop_append_of_mem h₃] at hm
    rw [drop_append_of_mem h₄] at hr
    refine ⟨?_, .inr ⟨m, reach, ?_, ?_, ?_, hne, ?_⟩⟩
    · rw [drop_append_of_mem h₁]
      exact triviaLength_local hk (by rwa [List.drop_drop]) r'
    · rw [drop_append_of_mem h₂, head?_append_of_mem h₂, he]
    · rw [drop_append_of_mem h₃]
      exact triviaLength_local hm (by rwa [List.drop_drop]) r'
    · rw [drop_append_of_mem h₄]
      exact expressionReach_local hr (by rwa [List.drop_drop]) r'
    · rw [drop_append_of_mem h₄, drop_append_of_mem h₄, List.take_append_of_le_length hl,
        List.take_append_of_le_length hl, ht _ r (Nat.add_le_add_left hw _),
        ht _ r' (Nat.add_le_add_left hw _)]

/-- A declaration before the closing parenthesis is read up to its end, whatever follows. -/
theorem readParameter_local {v : Read Parameter} (h : readParameter (u ++ r) = .ok v)
    (hc : .char ')' ∈ u.drop v.length) (r' : Text) : readParameter (u ++ r') = .ok v := by
  obtain ⟨front, name, hf, hn, hd⟩ := readParameter_eq_ok_iff.1 h
  have hl : front.length + name.length ≤ v.length := by
    obtain ⟨k, -, ⟨-, rfl⟩ | ⟨m, reach, -, -, -, -, rfl⟩⟩ := readDefault_eq_ok_iff.1 hd
    · exact Nat.le_add_right _ k
    · show front.length + name.length ≤ front.length + name.length + k + 1 + m + reach.stop
      omega
  have h₂ : .char ')' ∈ u.drop (front.length + name.length) := mem_drop_of_le hc hl
  have h₁ : .char ')' ∈ u.drop front.length := mem_drop_of_le h₂ (Nat.le_add_right _ _)
  rw [drop_append_of_mem h₁] at hn
  have hh : (u.drop front.length).head? = some (.char '$') := by
    obtain ⟨s, x, he, -, hs⟩ := readVariable_ok hn
    rw [← head?_append_of_mem h₁ r, he]
    exact hs.head x
  refine readParameter_eq_ok_iff.2 ⟨front, name, readAnnotations_local hf hh r', ?_,
    readDefault_local hd hc r'⟩
  rw [drop_append_of_mem h₁]
  exact readVariable_local hn (by rwa [List.drop_drop]) r'

end

/-! ## Up to the closing parenthesis -/

/-- A declaration and the trivia behind it, with the closing parenthesis still to come: they are
read the same before any other text. -/
theorem declaration_local {u r : Text} {first : Read Parameter} {k : Nat}
    (hf : readParameter (u ++ r) = .ok first)
    (hk : triviaLength ((u ++ r).drop first.length) = .ok k)
    (hc : .char ')' ∈ u.drop (first.length + k)) (r' : Text) :
    (u ++ r').head? = (u ++ r).head? ∧ readParameter (u ++ r') = .ok first ∧
      triviaLength ((u ++ r').drop first.length) = .ok k ∧
      ((u ++ r').drop first.length).drop k = u.drop (first.length + k) ++ r' := by
  have hn : .char ')' ∈ u.drop first.length := mem_drop_of_le hc (Nat.le_add_right _ _)
  have hu : .char ')' ∈ u := List.mem_of_mem_drop hn
  rw [drop_append_of_mem hn] at hk
  refine ⟨?_, readParameter_local hf hn r', ?_, ?_⟩
  · rw [head?_append_of_mem hu, head?_append_of_mem hu]
  · rw [drop_append_of_mem hn]
    exact triviaLength_local hk (by rwa [List.drop_drop]) r'
  · rw [List.drop_drop, drop_append_of_mem hc]

theorem exists_of_drop_eq {t v x : Text} {n : Nat} (hv : v ≠ []) (h : t.drop n = v ++ x) :
    ∃ u, t = u ++ x ∧ u.drop n = v := by
  have hl := congrArg List.length h
  have hp := List.length_pos_iff.2 hv
  rw [List.length_drop, List.length_append] at hl
  refine ⟨t.take n ++ v, ?_, ?_⟩
  · rw [List.append_assoc, ← h, List.take_append_drop]
  · exact drop_of_eq_append rfl (by rw [List.length_take]; omega)

/-- The declarations of a block depend on the text up to the parenthesis that closes it. -/
theorem readDeclarations_cut {unclosed : Fault} {t : Text} {ps : List Parameter}
    (h : readDeclarations unclosed t = .ok ps) :
    ∃ u r, t = u ++ r ∧ [.char ')'] <:+ u ∧
      ∀ unclosed' r', readDeclarations unclosed' (u ++ r') = .ok ps := by
  fun_induction readDeclarations unclosed t generalizing ps with
  | case2 cs =>
    cases h
    refine ⟨[.char ')'], cs, rfl, List.suffix_rfl, fun unclosed' r' => ?_⟩
    rw [List.singleton_append, readDeclarations, if_pos rfl]
  | case6 c cs hc first hf rest k hk =>
    rename_i hh
    cases h
    obtain ⟨x, hx⟩ := List.head?_eq_some_iff.1 hh
    obtain ⟨u, hu, hd⟩ := exists_of_drop_eq (v := [.char ')']) (by simp) (List.drop_drop ▸ hx)
    have hm : .char ')' ∈ u.drop (first.length + k) := hd ▸ List.mem_singleton_self _
    refine ⟨u, x, hu, hd ▸ List.drop_suffix _ u, fun unclosed' r' => ?_⟩
    obtain ⟨h₀, h₁, h₂, h₃⟩ := declaration_local (hu ▸ hf) (hu ▸ hk) hm r'
    rw [← hu] at h₀
    rw [hd] at h₃
    exact readDeclarations_closing (by simpa [h₀] using hc) h₁ h₂ h₃
  | case8 c cs hc first hf rest k hk hh k' hk' =>
    rename_i ih
    obtain ⟨ps, hps, rfl⟩ := of_map_eq_ok h
    obtain ⟨x, hx⟩ := List.head?_eq_some_iff.1 hh
    rw [hx, List.drop_one, List.tail_cons] at hk' ih hps
    obtain ⟨v, y, hv, hlast, hread⟩ := ih hps
    have hmv : .char ')' ∈ v := hlast.subset (List.mem_singleton_self _)
    obtain ⟨u₁, rfl, hd₁⟩ := exists_of_drop_eq (List.ne_nil_of_mem hmv) hv
    obtain ⟨u, hu, hd⟩ := exists_of_drop_eq (v := .char ',' :: u₁) (by simp)
      (List.drop_drop ▸ hx)
    have hm₁ : .char ')' ∈ u₁.drop k' := by rwa [hd₁]
    have hm : .char ')' ∈ u.drop (first.length + k) := by
      rw [hd]
      exact .tail _ (List.mem_of_mem_drop hm₁)
    have hsuffix : v <:+ u := by
      rw [← hd₁]
      refine ((List.drop_suffix _ _).trans (List.suffix_cons (.char ',') _)).trans ?_
      rw [← hd]
      exact List.drop_suffix _ _
    refine ⟨u, y, hu, hlast.trans hsuffix, fun unclosed' r' => ?_⟩
    obtain ⟨h₀, h₁, h₂, h₃⟩ := declaration_local (hu ▸ hf) (hu ▸ hk) hm r'
    rw [← hu] at h₀
    rw [hd, List.cons_append] at h₃
    rw [readDeclarations_comma (by simpa [h₀] using hc) h₁ h₂ h₃
      (triviaLength_local hk' hm₁ r'), drop_append_of_mem hm₁, hd₁, hread]
    rfl
  | case1 | case3 | case4 | case5 | case7 | case9 => cases h

theorem readBlock_cut {t : Text} {ps : List Parameter} (h : readBlock t = .ok ps) :
    ∃ u r, t = u ++ r ∧ [.char ')'] <:+ u ∧ ∀ r', readBlock (u ++ r') = .ok ps := by
  unfold readBlock at h
  split at h
  · cases h
  · rename_i k hk
    obtain ⟨v, r, hv, hlast, hread⟩ := readDeclarations_cut h
    have hm : .char ')' ∈ v := hlast.subset (List.mem_singleton_self _)
    obtain ⟨u, rfl, rfl⟩ := exists_of_drop_eq (List.ne_nil_of_mem hm) hv
    refine ⟨u, r, rfl, hlast.trans (List.drop_suffix _ _), fun r' => ?_⟩
    simp only [readBlock, triviaLength_local hk hm r', drop_append_of_mem hm, hread]

/-! ## Finding the block -/

theorem IsKeyword.notMem {kw : Text} (h : IsKeyword kw) : .char '(' ∉ kw := by
  obtain ⟨name, w, rfl, hn, hw⟩ := h
  intro hc
  rcases List.mem_append.1 hc with hc | hc
  · have hl : CodePoint.toLower '(' ∈ ("param" : Text) := hn ▸ List.mem_map_of_mem hc
    revert hl
    decide
  · cases Text.isBlank_iff.1 hw _ hc

/-- Whether a block starts is decided by the first parenthesis. -/
theorem afterKeyword?_append {u : Text} (hc : .char '(' ∈ u) (r : Text) :
    afterKeyword? (u ++ r) = (afterKeyword? u).map (· ++ r) := by
  refine Option.ext fun rest => ?_
  rw [afterKeyword?_eq_some_iff, Option.map_eq_some_iff]
  constructor
  · rintro ⟨kw, hk, he⟩
    have hl : kw.length < u.length := by
      refine Nat.lt_of_not_le fun hle => hk.notMem ?_
      exact (List.prefix_of_prefix_length_le (List.prefix_append u r)
        (he ▸ List.prefix_append kw _) hle).subset hc
    obtain ⟨v, rfl, hv⟩ := exists_of_append_eq he (Nat.le_of_lt hl)
    cases v with
    | nil => simp at hl
    | cons d v =>
      obtain ⟨rfl, rfl⟩ := List.cons.inj hv
      exact ⟨v, afterKeyword?_eq_some_iff.2 ⟨kw, hk, rfl⟩, rfl⟩
  · rintro ⟨v, hv, rfl⟩
    obtain ⟨kw, hk, rfl⟩ := afterKeyword?_eq_some_iff.1 hv
    exact ⟨kw, hk, by simp⟩

/-- Items of one character that start neither an attribute nor anything longer. -/
def Item.isSingle : Item → Bool
  | opening b => b ≠ .square
  | closing _ => true
  | plain _ => true
  | _ => false

/-- Where no block starts, a word or a single character is skipped. -/
theorem locateFrom_skip {old : List Text} {d : Bool} {c : CodePoint} {r : Text} {item : Item}
    {n : Nat} (hn : Item.next true c r = .ok (item, n)) (hi : item.isSingle = true)
    (hs : isSpace c = false) (hk : (if d then none else afterKeyword? (c :: r)) = none) :
    locateFrom old d (c :: r) =
      if isCommandChar c then locateFrom [] false (r.drop (r.takeWhile isCommandChar).length)
      else locateFrom [] (c == .char '.') r := by
  rw [locateFrom, hn]
  cases item with
  | string | comment | escape e => cases hi
  | opening b =>
    cases b with
    | square => cases hi
    | paren | brace => simp [hs, hk]
  | closing b | plain e => simp [hs, hk]

theorem Item.isSingle_of_ne {item : Item} (h₁ : item ≠ .comment) (h₂ : item ≠ .string)
    (h₃ : item ≠ .opening .square) (h₄ : ∀ e, item ≠ .escape e) : item.isSingle = true := by
  cases item with
  | string => exact absurd rfl h₂
  | comment => exact absurd rfl h₁
  | escape e => exact absurd rfl (h₄ e)
  | opening b => exact decide_eq_true fun hb => h₃ (congrArg _ hb)
  | closing b | plain c => rfl

/-- What is skipped before the parenthesis of a block is skipped before any other text. -/
theorem skip_local {d : Bool} {c : CodePoint} {u r : Text} {item : Item} {n : Nat}
    (hn : Item.next true c (u ++ r) = .ok (item, n)) (hi : item.isSingle = true)
    (hc : .char '(' ∈ u) (hk : (if d then none else afterKeyword? (c :: (u ++ r))) = none)
    (r' : Text) :
    Item.next true c (u ++ r') = .ok (item, 0) ∧
      (if d then none else afterKeyword? (c :: (u ++ r'))) = none := by
  constructor
  · obtain ⟨s, x, hx, -, hs⟩ := Item.next_ok hn
    have hnil : s = [] := by
      generalize hw : c :: s = w at hs
      cases hs with
      | opening | closing | plain => exact (List.cons.inj hw).2
      | _ => cases hi
    subst hnil
    rw [List.nil_append] at hx
    subst hx
    exact (hs.replace hc rfl rfl r').next
  · cases d with
    | true => rfl
    | false =>
      have hcu : .char '(' ∈ c :: u := .tail _ hc
      have hnone : (afterKeyword? (c :: u)).map (· ++ r) = none := by
        rw [← afterKeyword?_append hcu]
        exact hk
      have happ := afterKeyword?_append hcu r'
      rw [Option.map_eq_none_iff.1 hnone] at happ
      exact happ

/-- The parenthesis of a block that was found stands before every end of what follows it. -/
theorem exists_of_located {old as : List Text} {d : Bool} {t v r : Text}
    (h : locateFrom old d t = .ok (some ⟨as, v ++ r⟩)) : ∃ u, t = u ++ r ∧ .char '(' ∈ u := by
  obtain ⟨pre, kw, rfl, -, -⟩ := locateFrom_ok h
  exact ⟨pre ++ (kw ++ .char '(' :: v), by simp, by simp⟩

/-- A lexeme before the parenthesis is one before any other text, too. -/
theorem exists_lexeme_of_located {old as : List Text} {d : Bool} {c : CodePoint}
    {cs u v r : Text} {item : Item} {n : Nat} (hn : Item.next true c cs = .ok (item, n))
    (ht : u ++ r = c :: cs) (h : locateFrom old d (cs.drop n) = .ok (some ⟨as, v ++ r⟩)) :
    ∃ s w, u = s ++ w ∧ cs.drop n = w ++ r ∧ .char '(' ∈ w ∧
      ∀ r', Lexeme true item s (w ++ r') := by
  obtain ⟨s, x, rfl, rfl, hs⟩ := Item.next_ok hn
  rw [List.drop_left] at h ⊢
  obtain ⟨w, rfl, hc⟩ := exists_of_located h
  obtain rfl : u = c :: s ++ w := List.append_cancel_right (ht.trans (by simp))
  exact ⟨c :: s, w, rfl, rfl, hc, hs.replace hc rfl rfl⟩

/-- **The block is found by the text up to its parenthesis.** -/
theorem locateFrom_local {old as : List Text} {d : Bool} {u v r : Text}
    (h : locateFrom old d (u ++ r) = .ok (some ⟨as, v ++ r⟩)) (r' : Text) :
    locateFrom old d (u ++ r') = .ok (some ⟨as, v ++ r'⟩) := by
  obtain ⟨u', hu, hc⟩ := exists_of_located h
  obtain rfl := List.append_cancel_right hu
  generalize ht : u ++ r = t at h
  fun_induction locateFrom old d t generalizing u with
  | case1 | case2 | case5 => cases h
  | case3 old d c cs n hn ih =>
    obtain ⟨s, w, rfl, hd, hcw, hs⟩ := exists_lexeme_of_located hn ht h
    rw [List.append_assoc, locateFrom_comment (hs r')]
    exact ih rfl hcw hd.symm h
  | case4 old d c cs n hn ih =>
    obtain ⟨s, w, rfl, hd, hcw, hs⟩ := exists_lexeme_of_located hn ht h
    rw [List.append_assoc, locateFrom_string (hs r')]
    exact ih rfl hcw hd.symm h
  | case6 old d c cs k hn n hg ih =>
    obtain ⟨s, x, -, -, hs⟩ := Item.next_ok hn
    cases hs
    obtain ⟨g, x, rfl, rfl, hgr⟩ := groupTail_ok hg
    rw [List.take_left, List.drop_left] at ih h
    obtain ⟨w, rfl, hcw⟩ := exists_of_located h
    obtain rfl : u = Bracket.square.opening :: g ++ w :=
      List.append_cancel_right (ht.trans (by simp))
    rw [List.append_assoc, locateFrom_group ⟨g, rfl, hgr⟩]
    exact ih rfl hcw rfl h
  | case7 old d c cs e n hn ih =>
    obtain ⟨s, w, rfl, hd, hcw, hs⟩ := exists_lexeme_of_located hn ht h
    rw [List.append_assoc, locateFrom_escape (hs r')]
    exact ih rfl hcw hd.symm h
  | case8 old d c cs item n _ _ _ _ hn hsp ih =>
    obtain ⟨w, rfl, hcw⟩ := exists_of_located h
    obtain rfl : u = c :: w := List.append_cancel_right (ht.trans (by simp))
    rw [List.cons_append, locateFrom_space hsp]
    exact ih rfl hcw rfl h
  | case9 old d c cs item n _ _ _ _ hn hsp rest hr =>
    cases h
    split at hr
    · cases hr
    · rename_i hd
      obtain ⟨kw, hk, he⟩ := afterKeyword?_eq_some_iff.1 hr
      obtain rfl : u = kw ++ .char '(' :: v :=
        List.append_cancel_right ((ht.trans he).trans (by simp))
      rw [List.append_assoc, List.cons_append, Bool.eq_false_iff.2 hd]
      exact locateFrom_keyword hk
  | case10 old d c cs item n h₁ h₂ h₃ h₄ hn hsp hr hw ih =>
    obtain ⟨x, hx, hcx⟩ := exists_of_located h
    obtain ⟨w, rfl, hd⟩ := exists_of_drop_eq (List.ne_nil_of_mem hcx) hx
    obtain rfl : u = c :: w := List.append_cancel_right (ht.trans (by simp))
    have hcw : .char '(' ∈ w := List.mem_of_mem_drop (hd ▸ hcx)
    have hi : item.isSingle = true := Item.isSingle_of_ne h₁ h₂ h₃ h₄
    obtain ⟨hn', hr'⟩ := skip_local hn hi hcw hr r'
    -- The word ends before the parenthesis, so it is the same word before the other text.
    have htw (y : Text) : (w ++ y).takeWhile isCommandChar = w.takeWhile isCommandChar :=
      takeWhile_append_of_mem y hcw (by decide)
    rw [htw] at hd hx
    have hm : .char '(' ∈ w.drop (w.takeWhile isCommandChar).length := hd ▸ hcx
    rw [List.cons_append, locateFrom_skip hn' hi (by simpa using hsp) hr', if_pos hw, htw,
      drop_append_of_mem hm, hd]
    exact ih rfl hcx (htw r ▸ hx.symm) h
  | case11 old d c cs item n h₁ h₂ h₃ h₄ hn hsp hr hw ih =>
    obtain ⟨w, rfl, hcw⟩ := exists_of_located h
    obtain rfl : u = c :: w := List.append_cancel_right (ht.trans (by simp))
    have hi : item.isSingle = true := Item.isSingle_of_ne h₁ h₂ h₃ h₄
    obtain ⟨hn', hr'⟩ := skip_local hn hi hcw hr r'
    rw [List.cons_append, locateFrom_skip hn' hi (by simpa using hsp) hr', if_neg hw]
    exact ih rfl hcw rfl h

/-! ## Text behind -/

/-- A block is read from the text up to a closing parenthesis, whatever follows. -/
theorem Script.read_cut {t : Text} {b : ParamBlock} (h : Script.read t = .ok { block := some b }) :
    ∃ u r, t = u ++ r ∧ [.char ')'] <:+ u ∧
      ∀ s, Script.read (u ++ s) = .ok { block := some b } := by
  obtain ⟨rest, hl, hb⟩ := Script.read_ok h
  obtain ⟨v, r, rfl, hlast, hread⟩ := readBlock_cut hb
  obtain ⟨pre, kw, ht, -⟩ := locateFrom_ok hl
  have hu : t = (pre ++ kw ++ [.char '('] ++ v) ++ r := by simpa using ht
  refine ⟨_, r, hu, hlast.trans (List.suffix_append _ _), fun s => ?_⟩
  rw [hu] at hl
  have hls : locateBlock _ = .ok (some ⟨b.attributes, v ++ s⟩) := locateFrom_local hl s
  simp only [Script.read, hls, hread]
  rfl

/-- That parenthesis closes the block: no shorter text has one. -/
theorem Script.read_least_cut {t : Text} {b : ParamBlock}
    (h : Script.read t = .ok { block := some b }) :
    ∃ u r, t = u ++ r ∧ [.char ')'] <:+ u ∧
      (∀ s, Script.read (u ++ s) = .ok { block := some b }) ∧
      ∀ v b', v <+: u → Script.read v = .ok { block := some b' } → v = u := by
  induction hn : t.length using Nat.strongRecOn generalizing t b with
  | ind n ih =>
    obtain ⟨u, r, rfl, hlast, hread⟩ := Script.read_cut h
    by_cases hmin : ∀ v b', v <+: u → Script.read v = .ok { block := some b' } → v = u
    · exact ⟨u, r, rfl, hlast, hread, hmin⟩
    · -- A block in a shorter text is cut there, and it is the same block.
      push Not at hmin
      obtain ⟨v, b', ⟨x, rfl⟩, hv, hne⟩ := hmin
      have hx : x ≠ [] := fun hx => hne (by rw [hx, List.append_nil])
      have hlt : v.length < n := by
        have := List.length_pos_iff.2 hx
        simp only [List.length_append] at hn
        omega
      obtain ⟨u, y, rfl, hlast, hread', hmin⟩ := ih _ hlt hv rfl
      have hb : b' = b := by
        have hsame := hread' (y ++ x ++ r)
        simp only [← List.append_assoc] at hsame
        rw [h] at hsame
        cases hsame
        rfl
      exact ⟨u, y ++ x ++ r, by simp only [List.append_assoc], hlast, hb ▸ hread', hmin⟩

/-- **What is read does not depend on what stands around it.** -/
theorem Script.read_in_context (t : Text) :
    (∀ p, Trivia true p →
      Script.read (p ++ t) = Script.read t ∧
      ∀ f, Script.read t = .error (.fault f) → p = [] ∨ [.char '\n'] <:+ p →
        f.position (p ++ t) =
          { line := (f.position t).line + p.count (.char '\n'),
            column := (f.position t).column }) ∧
    ∀ b, Script.read t = .ok { block := some b } →
      (∀ s, Script.read (t ++ s) = .ok { block := some b }) ∧
      ∃ u r, t = u ++ r ∧ [.char ')'] <:+ u ∧
        (∀ s, Script.read (u ++ s) = .ok { block := some b }) ∧
        ∀ v b', v <+: u → Script.read v = .ok { block := some b' } → v = u := by
  constructor
  · intro p hp
    refine ⟨Script.read_trivia hp t, fun f hf hline => ?_⟩
    exact Fault.position_append hline (Script.read_error hf)
  · intro b hb
    obtain ⟨u, r, rfl, hlast, hread, hmin⟩ := Script.read_least_cut hb
    refine ⟨fun s => ?_, u, r, rfl, hlast, hread, hmin⟩
    rw [List.append_assoc]
    exact hread (r ++ s)

/-- A comment, a line comment and a backtick at the end of a line before a block, an unclosed string
behind it, and a block that is not closed. -/
theorem Script.read_in_context_comments :
    let p : Text := "<#a#># param($B)\n`\n"
    let b : ParamBlock := { parameters := [{ name := "A", extent := "$A" }] }
    let f : Fault := { reason := .unterminatedBlock, left := 4 }
    Script.read (p ++ "param($A)") = .ok { block := some b } ∧
      Script.read ("param($A)" ++ "'(") = .ok { block := some b } ∧
      Script.read (p ++ "\n param($A,") = .error (.fault f) ∧
      f.position (p ++ "\n param($A,") = { line := 4, column := 7 } := by
  intro p b f
  have hp : Trivia true p :=
    .block (s := "a#>") (.next (by decide) .here)
      (.line (s := " param($B)") (by decide) (.continued rfl (.inl rfl) .nil))
  have hb : Script.read "param($A)" = .ok { block := some b } :=
    eq_ok_of_toOption (by decide +kernel)
  have hf : Script.read "\n param($A," = .error (.fault f) := by decide +kernel
  have hblock := Script.read_in_context "param($A)"
  have hfault := (Script.read_in_context "\n param($A,").1 p hp
  exact ⟨((hblock.1 p hp).1).trans hb, (hblock.2 b hb).1 "'(", hfault.1.trans hf,
    (hfault.2 f hf (.inr (by decide))).trans (by decide +kernel)⟩

end CondParam
