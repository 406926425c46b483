import CondParam.Proofs.CursorAnnotation
import CondParam.Proofs.CursorLocate

/-!
# Reading by index

Variables, expressions, declarations and the block, over indices, and with them the whole reading:
`read_eq` says that it gives what `Script.read` gives, errors by their offsets. The cursor behind an
expression is past the end where the text ends with a backtick; from there on nothing is read, and
the agreement is of the text behind the cursor (`Ends`, `Reads`) instead of the cursor itself.
-/

set_option autoImplicit false

namespace CondParam.Cursor

/-- What a scanner gives agrees with what the reader of a front gives: values that are related, or
the same error. -/
inductive Agrees {ε α β : Type} (stop : ε → Stop) (R : α → β → Prop) :
    Except ε α → Scan β → Prop
  | ok {a : α} {b : β} : R a b → Agrees stop R (.ok a) (.ok b)
  | error (e : ε) : Agrees stop R (.error e) (.error (stop e))

theorem Agrees.map {ε α α' β : Type} {stop : ε → Stop} {R : α → β → Prop} {R' : α' → β → Prop}
    {f : α → α'} {x : Except ε α} {y : Scan β} (h : Agrees stop R x y)
    (hf : ∀ {a b}, R a b → R' (f a) b) : Agrees stop R' (x.map f) y := by
  cases h with
  | ok hr => exact .ok (hf hr)
  | error e => exact .error e

/-! ## Variables -/

theorem startsWith_eq_true {t mark : Text} {i : Nat} :
    startsWith t mark i = true ↔ ∃ r, t.drop i = mark ++ r := by
  rw [startsWith, List.isPrefixOf_iff_prefix]
  exact exists_congr fun r => eq_comm

theorem variableAt_eq {t : Text} {i : Nat} (h : i ≤ t.length) :
    variableAt t i = ((readVariable (t.drop i)).map (ofRead i)).mapError (Fault.stop t) := by
  have hstop := stop_drop h
  generalize hd : t.drop i = s at hstop
  have hbraced {cs : Text} (hs : s = .char '$' :: .char '{' :: cs) :
      startsWith t ['$', '{'] i = true ∧ t.drop (i + 2) = cs := by
    subst hs
    exact ⟨startsWith_eq_true.2 ⟨cs, hd⟩, drop_add hd 1⟩
  have hplain (hb : ∀ cs, s ≠ .char '$' :: .char '{' :: cs) :
      ¬ startsWith t ['$', '{'] i = true := by
    intro hs
    obtain ⟨cs, hcs⟩ := startsWith_eq_true.1 hs
    exact hb cs (hd.symm.trans hcs)
  unfold variableAt
  fun_cases readVariable s with
  | case1 cs n hn =>
    obtain ⟨hs, hcs⟩ := hbraced rfl
    have hcut : slice t (i + 2) (i + 2 + n - 1) = cs.take (n - 1) := by
      rw [slice_eq, hcs]
      congr 1
      omega
    rw [if_pos hs, findEnd?, hcs, hn]
    exact congrArg Except.ok (congrArg₂ At.mk hcut (show i + 2 + n = i + (n + 2) by omega))
  | case2 cs hn =>
    obtain ⟨hs, hcs⟩ := hbraced rfl
    rw [if_pos hs, findEnd?, hcs, hn]
    exact congrArg Except.error (hstop _).symm
  | case3 cs hb r hr =>
    rw [if_neg (hplain fun u hu => hb u (List.cons.inj hu).2),
      if_pos (startsWith_eq_true.2 ⟨cs, hd⟩), drop_succ hd, hr]
    have hend : i + 1 + r.length = i + (r.length + 1) := by omega
    exact congrArg Except.ok (congrArg (At.mk r.value) hend)
  | case4 cs hb hr =>
    rw [if_neg (hplain fun u hu => hb u (List.cons.inj hu).2),
      if_pos (startsWith_eq_true.2 ⟨cs, hd⟩), drop_succ hd, hr]
    exact congrArg Except.error (hstop _).symm
  | case5 _ hb hs =>
    have hs : ¬ startsWith t ['$'] i = true := by
      intro h
      obtain ⟨cs, hcs⟩ := startsWith_eq_true.1 h
      exact hs cs (hd.symm.trans hcs)
    rw [if_neg (hplain hb), if_neg hs]
    exact congrArg Except.error (hstop _).symm

/-! ## Expressions -/

/-- Where the expression at `i` ends by indices: its text at `e.value`, which is `last` if there is
none, and the expression at `e.cursor`. An escape at the end may take both past the end. -/
structure Ends (t : Text) (last i : Nat) (reach : Reach) (e : At Nat) : Prop where
  value : t.take e.value = t.take (if reach.text = 0 then last else i + reach.text)
  cursor : t.drop e.cursor = t.drop (i + reach.stop)

section
variable {t cs : Text} {i : Nat} {c : CodePoint} {last : Nat} {fresh : Bool}

theorem Ends.afterText {n j : Nat} {reach : Reach} {e : At Nat}
    (h : Ends t j j reach e) (hj : j = i + n) (hn : 0 < n) :
    Ends t last i (reach.afterText n) e := by
  subst hj
  obtain ⟨hv, hc⟩ := h
  constructor
  · rw [hv, Reach.afterText, if_neg (show reach.text + n ≠ 0 by omega)]
    show _ = t.take (i + (reach.text + n))
    congr 1
    split <;> omega
  · rw [hc]
    show _ = t.drop (i + (reach.stop + n))
    congr 1
    omega

theorem Ends.afterTrivia {n j : Nat} {reach : Reach} {e : At Nat}
    (h : Ends t last j reach e) (hj : j = i + n) :
    Ends t last i (reach.afterTrivia n) e := by
  subst hj
  obtain ⟨hv, hc⟩ := h
  constructor
  · rw [hv, Reach.afterTrivia]
    by_cases ht : reach.text = 0
    · simp [ht]
    · have hn : reach.text + n ≠ 0 := by omega
      simp only [ht, hn, if_false]
      congr 1
      omega
  · rw [hc]
    show _ = t.drop (i + (reach.stop + n))
    congr 1
    omega

/-- A turn at a character where the expression goes on. -/
theorem expressionTurn_cons (h : t.drop i = c :: cs) (hc : ¬ (c = ',' ∨ c = ')'))
    (hf : Fresh t i fresh) :
    expressionTurn t last i =
      if isSpace c then .ok (.next last (i + 1))
      else if opensBlock t i then commentEnd t i >>= fun e => .ok (.next last e)
      else if c = '#' ∧ fresh = true then .ok (.next last (lineEnd t i))
      else partEnd t i c >>= fun e => .ok (.next e e) := by
  rw [expressionTurn, if_pos (lt_of_drop h), charAt_of_drop h, ok_bind, if_neg hc,
    opensLine_eq h hf, ok_bind]
  simp only [Bool.and_eq_true, decide_eq_true_eq]
  rfl

/-- The part of an expression that an item is. A backtick at the end takes the cursor past the
end. -/
theorem partEnd_item {item : Item} {n : Nat} (h : t.drop i = c :: cs)
    (hn : Item.next fresh c cs = .ok (item, n)) (hb : item.isBracket = false)
    (hcomment : item ≠ .comment) :
    ∃ j, partEnd t i c = .ok j ∧ (j = i + 1 + n ∨ t.drop j = [] ∧ cs.drop n = []) := by
  have hs := sees h fresh
  rw [hn] at hs
  cases hs with
  | string _ ho he => exact ⟨_, by simp [partEnd, ho, he], .inl rfl⟩
  | block | line => exact absurd rfl hcomment
  | escape hc =>
    subst hc
    obtain ⟨ho, -, -⟩ := escape_start h
    have hop : Bracket.ofOpening? backtick = none := by decide
    have hcl : Bracket.ofClosing? backtick = none := by decide
    exact ⟨i + 2, by simp [partEnd, ho, hop, hcl], escape_lands h⟩
  | opening | closing => cases hb
  | plain hp ho _ =>
    exact ⟨i + 1, by simp [partEnd, ho, hp.notOpening, hp.notClosing, hp.notEscape], .inl rfl⟩

/-- A turn over a part of the expression's text. -/
theorem expressionTurn_part {item : Item} {n : Nat} (h : t.drop i = c :: cs)
    (hc : ¬ (c = ',' ∨ c = ')')) (hf : Fresh t i fresh)
    (hn : Item.next fresh c cs = .ok (item, n)) (hcomment : item ≠ .comment)
    (hsp : isSpace c = false) :
    expressionTurn t last i = partEnd t i c >>= fun e => .ok (.next e e) := by
  obtain ⟨hb, hl⟩ := not_comment_of_next h hn hcomment
  rw [expressionTurn_cons h hc hf, hsp, hb, if_neg Bool.false_ne_true, if_neg Bool.false_ne_true,
    if_neg hl]

theorem partEnd_opening {b : Bracket} (h : t.drop i = b.opening :: cs) :
    partEnd t i b.opening = groupEnd t i := by
  simp [partEnd, (bracket_start h (.inl rfl)).1]

theorem partEnd_closing {b : Bracket} (h : t.drop i = b.closing :: cs) :
    partEnd t i b.closing = .error (.fault (.unexpectedClosing b) i) := by
  have ho : Bracket.ofOpening? b.closing = none := by cases b <;> rfl
  simp [partEnd, (bracket_start h (.inr rfl)).1, ho]

theorem expressionLoop_agrees (h : t.drop i = cs) (hf : Fresh t i fresh) :
    Agrees (Fault.stop t) (Ends t last i) (expressionReach fresh cs)
      ((expressionLoop t).run last i) := by
  fun_induction expressionReach fresh cs generalizing i last with
  | case1 =>
    rw [Loop.run_done (if_neg (Nat.not_lt.2 (List.drop_eq_nil_iff.1 h)))]
    exact .ok ⟨rfl, rfl⟩
  | case2 fresh c cs hc =>
    have ht : expressionTurn t last i = .ok (.done ⟨last, i⟩) := by
      simp [expressionTurn, lt_of_drop h, charAt_of_drop h, hc]
    rw [Loop.run_done ht]
    exact .ok ⟨rfl, rfl⟩
  | case3 fresh c cs hc f hn =>
    have ht : expressionTurn t last i = .error (f.stop t) := by
      rw [expressionTurn_cons h hc hf]
      have hs := sees h fresh
      rw [hn] at hs
      cases hs with
      | badString hq ho he =>
        obtain ⟨hsp, hb, hh⟩ := string_start h hq
        simp [hsp, hb, hh, partEnd, ho, he]
      | badBlock hq hb he =>
        obtain ⟨hsp, -, -⟩ := comment_start h (.inl hq)
        simp [hsp, hb, he]
    rw [Loop.run_error ht]
    exact .error f
  | case4 fresh c cs hc n hn ih =>
    have ht : expressionTurn t last i = .ok (.next last (i + 1 + n)) := by
      rw [expressionTurn_cons h hc hf]
      have hs := sees h fresh
      rw [hn] at hs
      cases hs with
      | block hq hb he =>
        obtain ⟨hsp, -, -⟩ := comment_start h (.inl hq)
        simp [hsp, hb, he]
      | line hfr hq he =>
        subst hq
        obtain ⟨hsp, -, -⟩ := comment_start h (.inr rfl)
        have hb := opensBlock_eq_false (charAt_of_drop h) (show CodePoint.char '#' ≠ '<' by decide)
        simp [hsp, hb, hfr, he]
    rw [Loop.run_next ht]
    exact (ih (drop_add h n) (fresh_next h hn)).map fun he => he.afterTrivia (by omega)
  | case5 fresh c cs hc b n hn f hg =>
    obtain ⟨rfl, rfl⟩ := eq_opening_of_next hn
    have ht : expressionTurn t last i = _ :=
      expressionTurn_part h hc hf hn (by simp) b.isSpace_opening
    rw [partEnd_opening h, groupEnd_eq h, hg] at ht
    rw [Loop.run_error ht]
    exact .error f
  | case6 fresh c cs hc b n hn m hg ih =>
    obtain ⟨rfl, rfl⟩ := eq_opening_of_next hn
    have ht : expressionTurn t last i = _ :=
      expressionTurn_part h hc hf hn (by simp) b.isSpace_opening
    rw [partEnd_opening h, groupEnd_eq h, hg] at ht
    rw [Loop.run_next ht]
    exact (ih (drop_add h m) (fresh_group h hg)).map fun he =>
      he.afterText (by omega) (Nat.succ_pos m)
  | case7 fresh c cs hc b n hn =>
    obtain ⟨rfl, rfl⟩ := eq_closing_of_next hn
    have ht : expressionTurn t last i = _ :=
      expressionTurn_part h hc hf hn (by simp) b.isSpace_closing
    rw [partEnd_closing h] at ht
    rw [Loop.run_error ht, ← stop_at h]
    exact .error _
  | case8 fresh c cs hc item n hcomment hopening hclosing hn reach hsp =>
    rename_i ih
    have ht : expressionTurn t last i = .ok (.next last (i + 1)) := by
      rw [expressionTurn_cons h hc hf, if_pos hsp]
    obtain ⟨rfl, rfl⟩ : Item.plain c = item ∧ 0 = n := by
      have := (Item.next_ordinary (notMem_lexicalMarks_of_isSpace hsp) cs).symm.trans hn
      exact Prod.mk.inj (Except.ok.inj this)
    rw [Loop.run_next ht]
    exact (ih (drop_add h 0) (fresh_next h hn)).map fun he => he.afterTrivia rfl
  | case9 fresh c cs hc item n hcomment hopening hclosing hn reach hsp =>
    rename_i ih
    have hb := Item.isBracket_eq_false hopening hclosing
    obtain ⟨j, hj, hland⟩ := partEnd_item h hn hb hcomment
    have ht : expressionTurn t last i = _ :=
      expressionTurn_part h hc hf hn hcomment (by simpa using hsp)
    rw [hj] at ht
    rw [Loop.run_next ht]
    rcases hland with rfl | ⟨hd, hr⟩
    · exact (ih (drop_add h n) (fresh_next h hn)).map fun he =>
        he.afterText (by omega) (Nat.succ_pos n)
    · -- the cursor is past the end, and nothing is left to read
      have hj := List.drop_eq_nil_iff.1 hd
      have hend : t.length ≤ i + (n + 1) := by
        rw [← List.drop_eq_nil_iff, Nat.add_comm n, ← Nat.add_assoc, drop_add h, hr]
      show Agrees _ _ ((expressionReach item.startsToken (cs.drop n)).map _) _
      rw [hr, expressionReach, Loop.run_done (if_neg (Nat.not_lt.2 hj))]
      refine .ok ⟨?_, ?_⟩
      · show t.take j = t.take (i + (0 + (n + 1)))
        rw [List.take_of_length_le hj, List.take_of_length_le (by omega)]
      · show t.drop j = t.drop (i + (0 + (n + 1)))
        rw [hd, List.drop_eq_nil_of_le (by omega)]

/-- **The expression at an index** reaches as far as the reader of a front says. -/
theorem expressionAt_agrees (hf : Fresh t i fresh) :
    Agrees (Fault.stop t) (Ends t i i) (expressionReach fresh (t.drop i)) (expressionAt t i) :=
  expressionLoop_agrees rfl hf

end

/-! ## Declarations -/

/-- No comment is left behind trivia. -/
theorem fresh_trivia {t : Text} {i n : Nat} (h : triviaLength (t.drop i) = .ok n) (fresh : Bool) :
    Fresh t (i + n) fresh := by
  intro hh
  obtain ⟨s, r, hs, rfl, h₀, -⟩ := triviaLength_ok h
  rw [← List.drop_drop, hs, List.drop_left] at hh
  obtain ⟨cs, rfl⟩ := List.head?_eq_some_iff.1 hh
  have hsp : ¬ isSpace '#' = true := by decide
  have hc : commentTail? true '#' cs = some (.ok (cs.takeWhile (· ≠ .char '\n')).length) := by
    simp [commentTail?]
  rw [triviaLength, if_neg hsp, hc] at h₀
  obtain ⟨m, -, hm⟩ := of_map_eq_ok h₀
  omega

/-- A parameter that is read at `i`, and a cursor that stands where its text ends. -/
structure Reads (t : Text) (i : Nat) (v : Read Parameter) (p : At Parameter) : Prop where
  value : p.value = v.value
  cursor : t.drop p.cursor = t.drop (i + v.length)

theorem Ends.slice_eq {t : Text} {last i : Nat} {reach : Reach} {e : At Nat}
    (h : Ends t last i reach e) (k : Nat) :
    slice t k e.value = slice t k (if reach.text = 0 then last else i + reach.text) :=
  congrArg (List.drop k) h.value

theorem Ends.slice_none {t : Text} {last i : Nat} {reach : Reach} {e : At Nat}
    (h : Ends t last i reach e) (h0 : reach.text = 0) : slice t last e.value = [] := by
  rw [h.slice_eq, if_pos h0, Cursor.slice_eq, Nat.sub_self, List.take_zero]

/-- The text up to the end of an expression that starts `n` characters further. -/
theorem Ends.slice_text {t : Text} {last k n : Nat} {reach : Reach} {e : At Nat}
    (h : Ends t last (k + n) reach e) (h0 : reach.text ≠ 0) :
    slice t k e.value = (t.drop k).take (n + reach.text) := by
  rw [h.slice_eq, if_neg h0, Cursor.slice_eq, Nat.add_assoc, Nat.add_sub_cancel_left]

/-- **The default of a declaration**, behind its variable. -/
theorem defaultAt_agrees {t name : Text} {start n : Nat} {annotations : List Annotation}
    (hn : start + n ≤ t.length) :
    Agrees (ReadError.stop t) (Reads t start) (readDefault (t.drop start) n name annotations)
      (defaultAt t start annotations ⟨name, start + n⟩) := by
  unfold defaultAt readDefault
  simp only [skipTrivia_eq, List.drop_drop]
  cases hs : triviaLength (t.drop (start + n)) with
  | error f => exact .error _
  | ok s =>
    obtain ⟨w, r, hw, hwl, -, -⟩ := triviaLength_ok hs
    have hi := add_le_length hn hw hwl
    simp only [ofTail, ok_bind, peek_eq, Nat.add_assoc]
    by_cases he : (t.drop (start + (n + s))).head? = some (.char '=')
    · obtain ⟨cs, hcs⟩ := List.head?_eq_some_iff.1 he
      simp only [he, if_true]
      cases hs' : triviaLength (t.drop (start + (n + (s + 1)))) with
      | error f => exact .error _
      | ok s' =>
        obtain ⟨w', r', hw', hwl', -, -⟩ := triviaLength_ok hs'
        have hlt := lt_of_drop hcs
        have hi' := add_le_length (by omega) hw' hwl'
        simp only [Nat.add_assoc] at hi'
        have hfresh := fresh_trivia hs' true
        simp only [Nat.add_assoc] at hfresh
        simp only [ok_bind]
        generalize hfirst : n + (s + (1 + s')) = first at *
        have hreach := expressionAt_agrees hfresh
        generalize hx : expressionReach true (t.drop (start + first)) = x at *
        generalize expressionAt t (start + first) = y at *
        cases hreach with
        | error f => exact .error (ReadError.fault f)
        | @ok reach e hends =>
          by_cases h0 : reach.text = 0
          · simp only [ok_bind, hends.slice_none h0, h0, if_true, List.isEmpty_nil]
            rw [← stop_drop hi']
            exact .error (ReadError.fault _)
          · have hne : t.drop (start + first) ≠ [] := by
              intro hnil
              rw [hnil, expressionReach] at hx
              cases hx
              exact h0 rfl
            have htext : slice t (start + first) e.value =
                (t.drop (start + first)).take reach.text := by
              rw [hends.slice_eq, if_neg h0, slice_eq, Nat.add_sub_cancel_left]
            have hfull : ¬ ((t.drop (start + first)).take reach.text).isEmpty = true := by
              simp [List.isEmpty_iff, h0, hne]
            simp only [ok_bind, h0, if_false, htext, hends.slice_text h0, hfull]
            refine .ok ⟨?_, ?_⟩
            · rw [← hfirst]
              simp only [Nat.add_assoc]
            · rw [hends.cursor, ← hfirst]
              simp only [Nat.add_assoc]
    · simp only [he, if_false]
      refine .ok ⟨?_, ?_⟩
      · simp [slice_eq]
      · rfl

/-- **The declaration at an index.** -/
theorem parameterAt_agrees {t : Text} {i : Nat} (hi : i ≤ t.length) :
    Agrees (ReadError.stop t) (Reads t i) (readParameter (t.drop i)) (parameterAt t i) := by
  rw [parameterAt, annotationsLoop_eq [] rfl]
  unfold readParameter
  cases hf : readAnnotations (t.drop i) with
  | error e => exact .error e
  | ok front =>
    obtain ⟨s, r, hs, hsl, -⟩ := readAnnotations_ok hf
    have hi' := add_le_length hi hs hsl
    show Agrees _ _ _ (variableAt t (i + front.length) >>= defaultAt t i front.value)
    rw [variableAt_eq hi', ← List.drop_drop]
    simp only
    cases hn : readVariable ((t.drop i).drop front.length) with
    | error f => exact .error (ReadError.fault f)
    | ok name =>
      obtain ⟨s', r', hs', hsl', -⟩ := readVariable_ok hn
      rw [List.drop_drop] at hs'
      have hle := add_le_length hi' hs' hsl'
      show Agrees _ _ _ (defaultAt t i front.value ⟨name.value, i + front.length + name.length⟩)
      rw [Nat.add_assoc] at hle ⊢
      exact defaultAt_agrees hle

/-! ## The block -/

/-- Reads declarations behind trivia. -/
def readRest (unclosed : Fault) (cs : Text) : Except ReadError (List Parameter) :=
  match triviaLength cs with
  | .error f => .error (.fault f)
  | .ok s => readDeclarations unclosed (cs.drop s)

/-- Reads declarations behind another one and the trivia there. -/
def readSeparated (unclosed : Fault) : Text → Except ReadError (List Parameter)
  | [] => .error (.fault unclosed)
  | c :: cs =>
    if c = ',' then readRest unclosed cs
    else if c = ')' then .ok []
    else .error (.fault ⟨.expectedSeparator c, cs.length + 1⟩)

theorem readDeclarations_separated {u : Fault} {c : CodePoint} {cs : Text} {v : Read Parameter}
    {k : Nat} (hc : c ≠ ')') (hv : readParameter (c :: cs) = .ok v)
    (hk : triviaLength ((c :: cs).drop v.length) = .ok k) :
    readDeclarations u (c :: cs) =
      (readSeparated u (((c :: cs).drop v.length).drop k)).map (v.value :: ·) := by
  rw [readDeclarations, if_neg hc, hv]
  simp only [hk]
  generalize ((c :: cs).drop v.length).drop k = rest
  cases rest with
  | nil => rfl
  | cons d ds =>
    rw [readSeparated, List.head?_cons]
    split
    · contradiction
    · rename_i hd
      cases hd
      rfl
    · rename_i hd
      cases hd
      rw [if_pos rfl, readRest, List.drop_one, List.tail_cons]
      cases triviaLength ds <;> rfl
    · rename_i d' hclose hcomma hd
      cases hd
      rw [if_neg hcomma, if_neg hclose]
      rfl

section
variable {t : Text} {start i : Nat} {parameters : List Parameter}

theorem separatorTurn_nil (h : t.drop i = []) :
    separatorTurn t parameters i = .ok (.next parameters i) := by
  rw [separatorTurn, peek_of_drop_nil h]
  rfl

theorem separatorTurn_cons {c : CodePoint} {cs : Text} (h : t.drop i = c :: cs) :
    separatorTurn t parameters i =
      if c = ',' then .ok (.next parameters (i + 1))
      else if c = ')' then .ok (.next parameters i)
      else .error (.fault (.expectedSeparator c) i) := by
  rw [separatorTurn, peek_of_drop h]
  rfl

theorem parametersTurn_nil {s : Nat} (hs : triviaLength (t.drop i) = .ok s)
    (h : t.drop (i + s) = []) :
    parametersTurn t start parameters i = .error (.fault .unterminatedBlock start) := by
  simp only [parametersTurn, skipTrivia_eq, hs, ofTail, ok_bind, peek_of_drop_nil h]

theorem parametersTurn_cons {s : Nat} {c : CodePoint} {cs : Text}
    (hs : triviaLength (t.drop i) = .ok s) (h : t.drop (i + s) = c :: cs) :
    parametersTurn t start parameters i =
      if c = ')' then .ok (.done parameters)
      else parameterAt t (i + s) >>= fun p =>
        skipTrivia t p.cursor >>= separatorTurn t (parameters ++ [p.value]) := by
  simp only [parametersTurn, skipTrivia_eq, hs, ofTail, ok_bind, peek_of_drop h]
  rfl

/-- A turn that ends at a separator, and the turns behind it. -/
theorem run_separated {ps : List Parameter} {j : Nat} {u : Fault}
    (ht : parametersTurn t start parameters i = separatorTurn t ps j)
    (ih : ∀ ps' j', parametersTurn t start parameters i = .ok (.next ps' j') →
      (parametersLoop t start).run ps' j' =
        ((readRest u (t.drop j')).map (ps' ++ ·)).mapError (ReadError.stop t)) :
    (parametersLoop t start).run parameters i =
      ((readSeparated u (t.drop j)).map (ps ++ ·)).mapError (ReadError.stop t) := by
  cases hj : t.drop j with
  | nil =>
    rw [separatorTurn_nil hj] at ht
    rw [Loop.run_next ht, ih _ _ ht, hj, readRest, triviaLength]
    simp only [List.drop_nil, readDeclarations]
    rfl
  | cons c cs =>
    rw [separatorTurn_cons hj] at ht
    rw [readSeparated]
    by_cases hcomma : c = ','
    · rw [if_pos hcomma] at ht ⊢
      rw [Loop.run_next ht, ih _ _ ht, drop_succ hj]
    · rw [if_neg hcomma] at ht ⊢
      by_cases hclose : c = ')'
      · -- the next turn sees the parenthesis again
        have hz : triviaLength (c :: cs) = .ok 0 :=
          triviaLength_eq_zero cs (by rw [hclose]; rfl) (by rw [hclose]; decide)
        rw [if_pos hclose] at ht ⊢
        rw [Loop.run_next ht, ih _ _ ht, hj, readRest, hz]
        simp only [List.drop_zero, readDeclarations, if_pos hclose]
      · rw [if_neg hclose] at ht ⊢
        rw [Loop.run_error ht, ← stop_at hj]
        rfl

end

theorem parametersLoop_eq {t : Text} {start : Nat} {u : Fault}
    (hu : u.stop t = .fault .unterminatedBlock start) (parameters : List Parameter) (i : Nat) :
    (parametersLoop t start).run parameters i =
      ((readRest u (t.drop i)).map (parameters ++ ·)).mapError (ReadError.stop t) := by
  induction parameters, i using (parametersLoop t start).induction with
  | step parameters i ih =>
    unfold readRest
    cases hs : triviaLength (t.drop i) with
    | error f =>
      have ht : parametersTurn t start parameters i = .error (f.stop t) := by
        simp only [parametersTurn, skipTrivia_eq, hs, ofTail, error_bind]
      exact Loop.run_error ht
    | ok s =>
      simp only [List.drop_drop]
      cases hd : t.drop (i + s) with
      | nil =>
        rw [Loop.run_error (parametersTurn_nil hs hd), readDeclarations, ← hu]
        rfl
      | cons c cs =>
        by_cases hc : c = ')'
        · rw [readDeclarations, if_pos hc,
            Loop.run_done ((parametersTurn_cons hs hd).trans (if_pos hc))]
          simp [Except.map, Except.mapError]
        · have ht : parametersTurn t start parameters i = _ :=
            (parametersTurn_cons hs hd).trans (if_neg hc)
          have hp := parameterAt_agrees (Nat.le_of_lt (lt_of_drop hd))
          rw [hd] at hp
          generalize hx : readParameter (c :: cs) = x at hp
          generalize parameterAt t (i + s) = y at hp ht
          cases hp with
          | error e =>
            rw [readDeclarations, if_neg hc, hx]
            exact Loop.run_error ht
          | @ok v p hv =>
            have hcur : t.drop p.cursor = (c :: cs).drop v.length := by
              rw [hv.cursor, ← List.drop_drop, hd]
            rw [ok_bind, skipTrivia_eq, hcur, hv.value] at ht
            cases hk : triviaLength ((c :: cs).drop v.length) with
            | error f =>
              rw [hk] at ht
              rw [readDeclarations, if_neg hc, hx]
              simp only [hk]
              exact Loop.run_error ht
            | ok k =>
              rw [hk] at ht
              rw [readDeclarations_separated hc hx hk, ← hcur, List.drop_drop,
                run_separated ht ih]
              cases readSeparated u (t.drop (p.cursor + k)) with
              | error e => rfl
              | ok rest => simp [Except.map, Except.mapError]

/-- **Reading by index** gives what the reader of a front gives, its errors by their offsets. -/
theorem read_eq (t : Text) : read t = (Script.read t).mapError (ReadError.stop t) := by
  rw [read, locate_eq, Script.read]
  cases hl : locateBlock t with
  | error f => rfl
  | ok found =>
    cases found with
    | none => rfl
    | some l =>
      obtain ⟨pre, kw, hpre, -, -⟩ := locateFrom_ok hl
      have hstart : t.length - l.rest.length - 1 = (pre ++ kw).length := by
        rw [hpre]
        simp only [List.length_append, List.length_cons]
        omega
      have hd : t.drop (t.length - l.rest.length - 1) = .char '(' :: l.rest := by
        rw [hstart, hpre, ← List.append_assoc, List.drop_left]
      show (parametersAt t (t.length - l.rest.length - 1) >>= _) = _
      rw [parametersAt, parametersLoop_eq (stop_at hd _), drop_succ hd]
      show _ = Except.mapError _ (Except.map _ (readRest _ l.rest))
      cases readRest ⟨.unterminatedBlock, l.rest.length + 1⟩ l.rest <;> rfl

end CondParam.Cursor
