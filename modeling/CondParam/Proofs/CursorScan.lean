import CondParam.Proofs.Balanced
import CondParam.Script.Cursor.Scan

/-!
# Scanners and the readers of a front

A scanner at an index does what the reader of a front does on the text from there on: the string,
the comment, the group and the trivia that start at the index end where the reader says
(`sees`, `groupEnd_eq`, `skipTrivia_eq`), and the faults are at the same places (`ofTail`). So a
scanner asks for no character that is not there, wherever the cursor stands.

The reader of a group carries along whether a token can start; the scanner looks back at the
character before a `#`. `Fresh` says that this is the same, and `fresh_next` and `fresh_group` that
it stays so.
-/

set_option autoImplicit false

namespace CondParam

/-- A fault by its offset. -/
def Fault.stop (t : Text) (f : Fault) : Cursor.Stop := .fault f.reason (t.length - f.left)

namespace Cursor

/-- What the reader of the text from `i` on gives, by indices. -/
def ofTail (t : Text) (i : Nat) : Except Fault Nat → Scan Nat
  | .ok n => .ok (i + n)
  | .error f => .error (f.stop t)

theorem ofTail_map_add (t : Text) (i n : Nat) (x : Except Fault Nat) :
    ofTail t i (x.map (· + n)) = ofTail t (i + n) x := by
  cases x with
  | error f => rfl
  | ok m =>
    show Except.ok (i + (m + n)) = .ok (i + n + m)
    rw [Nat.add_comm m n, Nat.add_assoc]

/-! ## The character at an index -/

section
variable {t cs : Text} {i : Nat} {c : CodePoint}

theorem lt_of_drop (h : t.drop i = c :: cs) : i < t.length := by
  refine Nat.lt_of_not_le fun hl => ?_
  rw [List.drop_eq_nil_of_le hl] at h
  cases h

theorem length_of_drop (h : t.drop i = c :: cs) : cs.length + 1 = t.length - i := by
  have := congrArg List.length h
  rw [List.length_drop, List.length_cons] at this
  exact this.symm

theorem charAt_of_drop (h : t.drop i = c :: cs) : charAt t i = .ok c := by
  rw [charAt_eq_ok, ← List.head?_drop, h, List.head?_cons]

theorem charAt_of_drop_nil (h : t.drop i = []) : charAt t i = .error (.outside i) := by
  rw [charAt, ← List.head?_drop, h, List.head?_nil]

theorem drop_succ (h : t.drop i = c :: cs) : t.drop (i + 1) = cs := by
  rw [← List.drop_drop, h, List.drop_one, List.tail_cons]

theorem drop_add (h : t.drop i = c :: cs) (n : Nat) : t.drop (i + 1 + n) = cs.drop n := by
  rw [← List.drop_drop, drop_succ h]

theorem take_of_drop (h : t.drop i = c :: cs) (n : Nat) :
    t.take (i + 1 + n) = t.take i ++ c :: cs.take n := by
  rw [Nat.add_assoc, List.take_add, h, Nat.add_comm 1, List.take_succ_cons]

/-- A front that is read ends in the text. -/
theorem add_le_length {s r : Text} {n : Nat} (hi : i ≤ t.length) (h : t.drop i = s ++ r)
    (hn : s.length = n) : i + n ≤ t.length := by
  have := congrArg List.length h
  rw [List.length_drop, List.length_append] at this
  omega

/-- A fault at the front of the text from an index on is at the index. -/
theorem stop_drop (h : i ≤ t.length) (reason : Reason) :
    Fault.stop t ⟨reason, (t.drop i).length⟩ = .fault reason i := by
  rw [Fault.stop, List.length_drop]
  exact congrArg (Stop.fault reason) (Nat.sub_sub_self h)

theorem stop_at (h : t.drop i = c :: cs) (reason : Reason) :
    Fault.stop t ⟨reason, cs.length + 1⟩ = .fault reason i := by
  rw [length_of_drop h, ← List.length_drop]
  exact stop_drop (Nat.le_of_lt (lt_of_drop h)) reason

theorem peek_of_drop (h : t.drop i = c :: cs) : peek t i = .ok (some c) := by
  rw [peek, if_pos (lt_of_drop h), charAt_of_drop h]
  rfl

theorem peek_of_drop_nil (h : t.drop i = []) : peek t i = .ok none := by
  rw [peek, if_neg (Nat.not_lt.2 (List.drop_eq_nil_iff.1 h))]
  rfl

theorem peek_eq (t : Text) (i : Nat) : peek t i = .ok (t.drop i).head? := by
  cases h : t.drop i with
  | nil => exact peek_of_drop_nil h
  | cons c cs => exact peek_of_drop h

end

/-! ## Strings -/

section
variable {t cs : Text} {i : Nat} {c : CodePoint}

theorem startsHereString_eq (h : t.drop i = c :: cs) :
    startsHereString t i = .ok (c = '@' && opensHereString cs) := by
  rw [startsHereString, charAt_of_drop h, ok_bind]
  by_cases hc : c = '@'
  · cases cs with
    | nil =>
      have hl : t.length ≤ i + 1 := by
        have := length_of_drop h
        rw [List.length_nil] at this
        omega
      rw [if_pos (.inr hl)]
      simp [opensHereString]
    | cons q cs =>
      have hl : ¬ t.length ≤ i + 1 := Nat.not_le.2 (lt_of_drop (drop_succ h))
      rw [if_neg (by simp [hc, hl]), charAt_of_drop (drop_succ h), ok_bind,
        drop_succ (drop_succ h)]
      simp [hc, opensHereString]
  · rw [if_pos (.inl hc)]
    simp [hc]

theorem quotedTurn_eq {q : CodePoint} {start : Nat} (h : t.drop i = c :: cs) :
    quotedTurn t q start i = .ok
      (if q = '\x22' ∧ c = backtick then .next () (i + 2)
      else if c = q then if cs.head? = some q then .next () (i + 2) else .done (i + 1)
      else .next () (i + 1)) := by
  rw [quotedTurn, if_pos (lt_of_drop h), charAt_of_drop h, ok_bind, peek_eq, drop_succ h, ok_bind]
  split
  · rfl
  · split
    · split <;> rfl
    · rfl

theorem quotedLoop_eq {q : CodePoint} {start : Nat} (h : t.drop i = cs) :
    (quotedLoop t q start).run () i =
      (quotedTail q cs).elim (.error (.fault .unterminatedString start)) fun n => .ok (i + n) := by
  have ended {i : Nat} (h : t.drop i = []) :
      (quotedLoop t q start).run () i = .error (.fault .unterminatedString start) :=
    Loop.run_error (if_neg (Nat.not_lt.2 (List.drop_eq_nil_iff.1 h)))
  have next {i j : Nat} {r : Text} (h : quotedTurn t q start i = .ok (.next () j)) (n : Nat)
      (hj : j = i + n)
      (ih : (quotedLoop t q start).run () j = (quotedTail q r).elim
        (.error (.fault .unterminatedString start)) fun n => .ok (j + n)) :
      (quotedLoop t q start).run () i = ((quotedTail q r).map (· + n)).elim
        (.error (.fault .unterminatedString start)) fun n => .ok (i + n) := by
    rw [Loop.run_next h, ih, hj]
    cases quotedTail q r with
    | none => rfl
    | some m => exact congrArg Except.ok (show i + n + m = i + (m + n) by omega)
  fun_induction quotedTail q cs generalizing i with
  | case1 => exact ended h
  | case2 =>
    have hq : ¬ (q = '\x22' ∧ q = backtick) := by
      rintro ⟨rfl, hb⟩
      revert hb
      decide
    exact Loop.run_done ((quotedTurn_eq h).trans (by simp [hq]))
  | case3 c hc =>
    -- an escape takes the cursor past the end, any other character to the end
    by_cases hb : q = '\x22' ∧ c = backtick
    · rw [Loop.run_next ((quotedTurn_eq h).trans (by rw [if_pos hb]))]
      exact ended (drop_add h 1)
    · rw [Loop.run_next ((quotedTurn_eq h).trans (by rw [if_neg hb, if_neg hc]))]
      exact ended (drop_succ h)
  | case4 c d cs hc ih =>
    exact next ((quotedTurn_eq h).trans (by rw [if_pos hc])) 2 rfl (ih (drop_add h 1))
  | case5 cs hc ih =>
    exact next ((quotedTurn_eq h).trans (by simp [hc])) 2 rfl (ih (drop_add h 1))
  | case6 d cs hd hc => exact Loop.run_done ((quotedTurn_eq h).trans (by simp [hc, hd]))
  | case7 c d cs hn hc ih =>
    exact next ((quotedTurn_eq h).trans (by rw [if_neg hn, if_neg hc])) 1 rfl (ih (drop_succ h))

theorem opensString_eq (h : t.drop i = c :: cs) :
    opensString t i c = .ok (stringTail? c cs).isSome := by
  rw [opensString, startsHereString_eq h, stringTail?]
  split
  · split <;> rfl
  · split
    · rename_i ho
      rw [ho]
      split <;> rfl
    · rename_i ho
      rw [Bool.not_eq_true] at ho
      rw [ho]
      rfl

theorem stringEnd_eq {r : Except Fault Nat} (h : t.drop i = c :: cs)
    (hs : stringTail? c cs = some r) : stringEnd t i = ofTail t (i + 1) r := by
  rw [stringEnd, charAt_of_drop h, ok_bind]
  unfold stringTail? at hs
  split at hs
  · rename_i hq
    have hc : c ≠ '@' := by rintro rfl; cases hq
    rw [if_neg hc, quotedLoop_eq (drop_succ h)]
    split at hs
    · rename_i n hn
      cases hs
      rw [hn]
      rfl
    · rename_i hn
      cases hs
      rw [hn]
      exact congrArg Except.error (stop_at h _).symm
  · split at hs
    · rename_i ho
      obtain ⟨hc, ho⟩ : c = '@' ∧ opensHereString cs = true := by simpa using ho
      cases cs with
      | nil => cases ho
      | cons q cs =>
        rw [if_pos hc, charAt_of_drop (drop_succ h), ok_bind, findEnd?, drop_add h 1,
          List.drop_one, List.tail_cons]
        simp only [hereStringTail] at hs
        cases hm : Text.through ['\n', q, '@'] cs with
        | some n =>
          rw [hm] at hs
          cases hs
          exact congrArg Except.ok (show i + 2 + n = i + 1 + (n + 1) by omega)
        | none =>
          rw [hm] at hs
          cases hs
          exact congrArg Except.error (stop_at h _).symm
    · cases hs

end

/-! ## Comments -/

section
variable {t cs : Text} {i : Nat} {c : CodePoint}

theorem opensBlock_eq (h : t.drop i = c :: cs) :
    opensBlock t i = decide (c = '<' ∧ cs.head? = some (.char '#')) := by
  rw [opensBlock, startsWith, h, Bool.eq_iff_iff]
  cases cs with
  | nil => simp [List.isPrefixOf]
  | cons d cs => simp [List.isPrefixOf, @eq_comm _ (CodePoint.char _)]

/-- The first newline ends the line. -/
theorem through_newline (s : Text) :
    (Text.through ['\n'] s).elim s.length (· - 1) = (s.takeWhile (· ≠ .char '\n')).length := by
  induction s with
  | nil => rfl
  | cons c s ih =>
    by_cases hc : c = '\n'
    · subst hc
      simp [Text.through, List.isPrefixOf]
    · have hp : ¬ List.isPrefixOf [CodePoint.char '\n'] (c :: s) = true := by
        simpa using fun e => hc e.symm
      rw [Text.through, if_neg hp, List.takeWhile_cons_of_pos (by simpa using hc), List.length_cons,
        List.length_cons, ← ih]
      cases hm : Text.through ['\n'] s with
      | none => rfl
      | some n =>
        have := length_le_through hm
        simp only [List.length_singleton] at this
        show n + 1 - 1 = n - 1 + 1
        omega

theorem lineEnd_eq (h : i ≤ t.length) :
    lineEnd t i = i + ((t.drop i).takeWhile (· ≠ .char '\n')).length := by
  rw [← through_newline, lineEnd, findEnd?]
  cases hm : Text.through ['\n'] (t.drop i) with
  | none =>
    show t.length = i + (t.drop i).length
    rw [List.length_drop]
    omega
  | some n =>
    have := length_le_through hm
    simp only [List.length_singleton] at this
    show i + n - 1 = i + (n - 1)
    omega

/-- Where a comment opens, of which kind it is and where it ends. -/
theorem commentTail?_some {fresh : Bool} {r : Except Fault Nat} (h : t.drop i = c :: cs)
    (hr : commentTail? fresh c cs = some r) :
    (c = '<' ∧ opensBlock t i = true ∧ commentEnd t i = ofTail t (i + 1) r) ∨
    (fresh = true ∧ c = '#' ∧ ∃ n, r = .ok n ∧ lineEnd t i = i + 1 + n) := by
  unfold commentTail? at hr
  split at hr
  · rename_i hb
    refine .inl ⟨hb.1, by rw [opensBlock_eq h, decide_eq_true hb], ?_⟩
    rw [commentEnd, findEnd?, drop_add h 1]
    cases hm : Text.through ['#', '>'] (cs.drop 1) with
    | some n =>
      rw [hm] at hr
      cases hr
      exact congrArg Except.ok (show i + 2 + n = i + 1 + (n + 1) by omega)
    | none =>
      rw [hm] at hr
      cases hr
      exact congrArg Except.error (stop_at h _).symm
  · split at hr
    · rename_i hl
      obtain ⟨hf, rfl⟩ := hl
      cases hr
      refine .inr ⟨hf, rfl, _, rfl, ?_⟩
      rw [lineEnd_eq (Nat.le_of_lt (lt_of_drop h)), h, List.takeWhile_cons_of_pos (by decide),
        List.length_cons]
      omega
    · cases hr

theorem opensBlock_of_none {fresh : Bool} (h : t.drop i = c :: cs)
    (hr : commentTail? fresh c cs = none) : opensBlock t i = false := by
  rw [opensBlock_eq h]
  exact decide_eq_false fun hc => (commentTail?_none hr).1 hc.1 hc.2

theorem commentAllowed_eq (h : i ≤ t.length) :
    commentAllowed t i = .ok (tokenStartsAfter (t.take i)) := by
  cases i with
  | zero => rfl
  | succ i =>
    have hi : i < t.length := h
    rw [commentAllowed, if_neg (Nat.succ_ne_zero i), Nat.add_sub_cancel,
      charAt_eq_ok.2 (List.getElem?_eq_getElem hi), ok_bind, List.take_succ_eq_append_getElem hi,
      tokenStartsAfter_append _ (List.cons_ne_nil _ _)]
    rfl

/-- Where a `#` stands, a token can start just if `fresh` says so. -/
def Fresh (t : Text) (i : Nat) (fresh : Bool) : Prop :=
  (t.drop i).head? = some (.char '#') → tokenStartsAfter (t.take i) = fresh

theorem opensLine_eq {fresh : Bool} (h : t.drop i = c :: cs) (hf : Fresh t i fresh) :
    opensLine t i c = .ok (decide (c = '#') && fresh) := by
  rw [opensLine, commentAllowed_eq (Nat.le_of_lt (lt_of_drop h))]
  split
  · rename_i hc
    rw [hf (by rw [h, hc, List.head?_cons])]
    simp [hc]
  · rename_i hc
    simp [hc]

theorem opensLine_of_ne (hc : c ≠ '#') : opensLine t i c = .ok false := by
  rw [opensLine, if_neg hc]
  rfl

/-- Behind an item a token can start just if the item says so. -/
theorem fresh_next {fresh : Bool} {item : Item} {n : Nat} (h : t.drop i = c :: cs)
    (hn : Item.next fresh c cs = .ok (item, n)) : Fresh t (i + 1 + n) item.startsToken := by
  intro hh
  obtain ⟨s, r, rfl, rfl, hl⟩ := Item.next_ok hn
  rw [drop_add h, List.drop_left] at hh
  rw [take_of_drop h, List.take_left, tokenStartsAfter_append _ (List.cons_ne_nil _ _)]
  -- only behind a line comment can the item be wrong, and there a newline follows, no `#`
  cases hb : item.isBracket with
  | false =>
    refine (hl.tokenStartsAfter (fun hr => ?_) hb).resolve_right fun hn => ?_
    · rw [hr] at hh
      cases hh
    · rw [hh] at hn
      exact absurd hn (by decide)
  | true =>
    cases hl with
    | @opening b r => cases b <;> decide
    | @closing b r => cases b <;> decide
    | _ => cases hb

end

/-! ## What stands at an index -/

/-- What a scanner finds at `i`, where `c` stands and `cs` behind it: how its tests come out and
where it goes. -/
inductive Sees (t : Text) (i : Nat) (fresh : Bool) (c : CodePoint) (cs : Text) :
    Except Fault (Item × Nat) → Prop
  | string {n : Nat} : isQuote c = true ∨ c = '@' → opensString t i c = .ok true →
      stringEnd t i = .ok (i + 1 + n) → Sees t i fresh c cs (.ok (.string, n))
  | badString {f : Fault} : isQuote c = true ∨ c = '@' → opensString t i c = .ok true →
      stringEnd t i = .error (f.stop t) → Sees t i fresh c cs (.error f)
  | block {n : Nat} : c = '<' → opensBlock t i = true → commentEnd t i = .ok (i + 1 + n) →
      Sees t i fresh c cs (.ok (.comment, n))
  | badBlock {f : Fault} : c = '<' → opensBlock t i = true → commentEnd t i = .error (f.stop t) →
      Sees t i fresh c cs (.error f)
  | line {n : Nat} : fresh = true → c = '#' → lineEnd t i = i + 1 + n →
      Sees t i fresh c cs (.ok (.comment, n))
  | escape : c = backtick → Sees t i fresh c cs (.ok (.escape cs.head?, (cs.take 1).length))
  | opening {b : Bracket} : c = b.opening → Sees t i fresh c cs (.ok (.opening b, 0))
  | closing {b : Bracket} : c = b.closing → Sees t i fresh c cs (.ok (.closing b, 0))
  | plain : IsPlain fresh c → opensString t i c = .ok false → opensBlock t i = false →
      Sees t i fresh c cs (.ok (.plain c, 0))

section
variable {t cs : Text} {i : Nat} {c : CodePoint}

/-- **A scanner finds the item** that the reader of a front finds. -/
theorem sees (h : t.drop i = c :: cs) (fresh : Bool) :
    Sees t i fresh c cs (Item.next fresh c cs) := by
  have hos := opensString_eq h
  unfold Item.next
  cases hs : stringTail? c cs with
  | some r =>
    rw [hs] at hos
    have hc : isQuote c = true ∨ c = '@' := by
      unfold stringTail? at hs
      split at hs
      · exact .inl ‹_›
      · split at hs
        · rename_i ha
          exact .inr (by simp only [Bool.and_eq_true, decide_eq_true_eq] at ha; exact ha.1)
        · cases hs
    have he := stringEnd_eq h hs
    cases r with
    | ok n => exact .string hc hos he
    | error f => exact .badString hc hos he
  | none =>
    rw [hs] at hos
    cases hm : commentTail? fresh c cs with
    | some r =>
      rcases commentTail?_some h hm with ⟨hc, hb, he⟩ | ⟨hf, hc, n, rfl, he⟩
      · cases r with
        | ok n => exact .block hc hb he
        | error f => exact .badBlock hc hb he
      · exact .line hf hc he
    | none =>
      have hb := opensBlock_of_none h hm
      have hf := (commentTail?_none hm).2
      simp only
      split
      · exact .escape ‹_›
      · rename_i hbt
        split
        · rename_i ho
          exact .opening (Bracket.eq_opening_of_ofOpening? ho)
        · rename_i ho
          exact .closing (Bracket.eq_closing_of_ofClosing? ho)
        · rename_i ho hc
          exact .plain ⟨(stringTail?_none hs).1, hbt, ho, hc, hf⟩ hos hb

theorem opensString_of_ne (h : t.drop i = c :: cs) (hq : isQuote c = false) (ha : c ≠ '@') :
    opensString t i c = .ok false := by
  rw [opensString_eq h, stringTail?_eq_none hq fun hc => absurd hc ha]
  rfl

/-- The first character of a string is no blank and starts no comment. -/
theorem string_start (h : t.drop i = c :: cs) (hc : isQuote c = true ∨ c = '@') :
    isSpace c = false ∧ opensBlock t i = false ∧ c ≠ '#' := by
  have hd := charAt_of_drop h
  simp only [isQuote, Bool.or_eq_true, beq_iff_eq] at hc
  rcases hc with (rfl | rfl) | rfl <;>
    exact ⟨by decide, opensBlock_eq_false hd (by decide), by decide⟩

/-- The first character of a comment is no blank, starts no string and opens no group. -/
theorem comment_start (h : t.drop i = c :: cs) (hc : c = '<' ∨ c = '#') :
    isSpace c = false ∧ opensString t i c = .ok false ∧ Bracket.ofOpening? c = none := by
  rcases hc with rfl | rfl <;>
    exact ⟨by decide, opensString_of_ne h (by decide) (by decide), rfl⟩

/-- A backtick starts no string and no comment. -/
theorem escape_start (h : t.drop i = backtick :: cs) :
    opensString t i backtick = .ok false ∧ opensBlock t i = false ∧
      opensLine t i backtick = .ok false :=
  ⟨opensString_of_ne h (by decide) (by decide),
    opensBlock_eq_false (charAt_of_drop h) (by decide), opensLine_of_ne (by decide)⟩

/-- A bracket starts no string and no comment, and is no escape. -/
theorem bracket_start {b : Bracket} (h : t.drop i = c :: cs) (hc : c = b.opening ∨ c = b.closing) :
    opensString t i c = .ok false ∧ opensBlock t i = false ∧ opensLine t i c = .ok false ∧
      c ≠ backtick := by
  have hd := charAt_of_drop h
  rcases hc with rfl | rfl <;> cases b <;>
    exact ⟨opensString_of_ne h (by decide) (by decide), opensBlock_eq_false hd (by decide),
      opensLine_of_ne (by decide), by decide⟩

/-- An escape is two characters long for a scanner. It lands behind the escape or, where the text
ends with the backtick, past the end. -/
theorem escape_lands (h : t.drop i = backtick :: cs) :
    i + 2 = i + 1 + (cs.take 1).length ∨
      t.drop (i + 2) = [] ∧ cs.drop (cs.take 1).length = [] := by
  cases cs with
  | nil => exact .inr ⟨drop_add h 1, rfl⟩
  | cons d cs => exact .inl rfl

end

/-! ## Groups -/

theorem eq_opening_of_next {fresh : Bool} {c : CodePoint} {cs : Text} {b : Bracket} {n : Nat}
    (h : Item.next fresh c cs = .ok (.opening b, n)) : c = b.opening ∧ n = 0 := by
  obtain ⟨s, r, -, rfl, hl⟩ := Item.next_ok h
  cases hl
  exact ⟨rfl, rfl⟩

theorem eq_closing_of_next {fresh : Bool} {c : CodePoint} {cs : Text} {b : Bracket} {n : Nat}
    (h : Item.next fresh c cs = .ok (.closing b, n)) : c = b.closing ∧ n = 0 := by
  obtain ⟨s, r, -, rfl, hl⟩ := Item.next_ok h
  cases hl
  exact ⟨rfl, rfl⟩

section
variable {t cs : Text} {i : Nat} {c : CodePoint} {b : Bracket} {start : Nat} {o : Open}
  {fresh : Bool}

/-- A turn behind the text. -/
theorem groupTurn_nil (h : t.drop i = []) :
    groupTurn t b start o i = .error (.fault (.unclosed b) start) :=
  if_neg (Nat.not_lt.2 (List.drop_eq_nil_iff.1 h))

/-- An item that is no comment is none for a scanner. -/
theorem not_comment_of_next {item : Item} {n : Nat} (h : t.drop i = c :: cs)
    (hn : Item.next fresh c cs = .ok (item, n)) (hcomment : item ≠ .comment) :
    opensBlock t i = false ∧ ¬ (c = '#' ∧ fresh = true) := by
  have hs := sees h fresh
  rw [hn] at hs
  cases hs with
  | string hc =>
    obtain ⟨-, hb, hh⟩ := string_start h hc
    exact ⟨hb, fun hl => hh hl.1⟩
  | block | line => exact absurd rfl hcomment
  | escape hc =>
    subst hc
    exact ⟨(escape_start h).2.1, fun hl => absurd hl.1 (by decide)⟩
  | @opening b hc =>
    subst hc
    exact ⟨(bracket_start h (.inl rfl)).2.1, fun hl => by cases b <;> cases hl.1⟩
  | @closing b hc =>
    subst hc
    exact ⟨(bracket_start h (.inr rfl)).2.1, fun hl => by cases b <;> cases hl.1⟩
  | plain hp _ hb => exact ⟨hb, fun hl => hp.notComment hl.2 hl.1⟩

theorem groupTurn_opening {b' : Bracket} (h : t.drop i = b'.opening :: cs) :
    groupTurn t b start o i = .ok (.next ⟨b', o.top :: o.below⟩ (i + 1)) := by
  obtain ⟨hs, hb, hl, ht⟩ := bracket_start h (.inl rfl)
  simp [groupTurn, lt_of_drop h, charAt_of_drop h, hs, hb, hl, ht]

theorem groupTurn_closing {b' : Bracket} (h : t.drop i = b'.closing :: cs) :
    groupTurn t b start o i =
      if b' = o.top then
        .ok (o.below.head?.elim (.done (i + 1)) fun b'' => .next ⟨b'', o.below.tail⟩ (i + 1))
      else .error (.fault (.mismatched b') i) := by
  obtain ⟨hs, hb, hl, ht⟩ := bracket_start h (.inr rfl)
  have ho : Bracket.ofOpening? b'.closing = none := by cases b' <;> rfl
  simp only [groupTurn, lt_of_drop h, charAt_of_drop h, hs, hb, hl, ht, ho, if_pos, ok_bind]
  by_cases hb : b' = o.top
  · cases o.below <;> simp [hb]
  · simp [hb]

theorem groupTurn_fault {f : Fault} (h : t.drop i = c :: cs)
    (hn : Item.next fresh c cs = .error f) : groupTurn t b start o i = .error (f.stop t) := by
  have hs := sees h fresh
  rw [hn] at hs
  cases hs with
  | badString _ ho he => simp [groupTurn, lt_of_drop h, charAt_of_drop h, ho, he]
  | badBlock hc ho he =>
    obtain ⟨-, hos, -⟩ := comment_start h (.inl hc)
    simp [groupTurn, lt_of_drop h, charAt_of_drop h, hos, ho, he]

/-- A turn over an item that is no bracket. A backtick at the end takes the cursor past the end. -/
theorem groupTurn_item {item : Item} {n : Nat} (h : t.drop i = c :: cs) (hf : Fresh t i fresh)
    (hn : Item.next fresh c cs = .ok (item, n)) (hb : item.isBracket = false) :
    ∃ j, groupTurn t b start o i = .ok (.next o j) ∧
      (j = i + 1 + n ∨ t.drop j = [] ∧ cs.drop n = []) := by
  have hs := sees h fresh
  have hd := charAt_of_drop h
  rw [hn] at hs
  cases hs with
  | string _ ho he =>
    exact ⟨_, by simp [groupTurn, lt_of_drop h, hd, ho, he], .inl rfl⟩
  | block hc ho he =>
    obtain ⟨-, hos, -⟩ := comment_start h (.inl hc)
    exact ⟨_, by simp [groupTurn, lt_of_drop h, hd, hos, ho, he], .inl rfl⟩
  | line hfr hc he =>
    subst hc
    obtain ⟨-, hos, -⟩ := comment_start h (.inr rfl)
    have hob := opensBlock_eq_false hd (by decide)
    exact ⟨_, by simp [groupTurn, lt_of_drop h, hd, hos, hob, opensLine_eq h hf, hfr, he], .inl rfl⟩
  | escape hc =>
    subst hc
    obtain ⟨hos, hob, hol⟩ := escape_start h
    exact ⟨i + 2, by simp [groupTurn, lt_of_drop h, hd, hos, hob, hol], escape_lands h⟩
  | plain hp hos hob =>
    refine ⟨i + 1, ?_, .inl rfl⟩
    have hol : opensLine t i c = .ok false := by
      rw [opensLine_eq h hf]
      cases hfr : fresh with
      | false => simp
      | true => simp [hp.notComment hfr]
    simp [groupTurn, lt_of_drop h, hd, hos, hob, hol, hp.notEscape, hp.notOpening, hp.notClosing]
  | opening | closing => cases hb

theorem groupLoop_eq {u : Fault} {top : Bracket} {below : List Bracket} (h : t.drop i = cs)
    (hf : Fresh t i fresh) (hu : u.stop t = .fault (.unclosed b) start) :
    (groupLoop t b start).run ⟨top, below⟩ i = ofTail t i (closingTail u top below fresh cs) := by
  have ended {i : Nat} {o : Open} (h : t.drop i = []) :
      (groupLoop t b start).run o i = .error (u.stop t) :=
    (Loop.run_error (groupTurn_nil h)).trans (congrArg Except.error hu.symm)
  fun_induction closingTail u top below fresh cs generalizing i with
  | case1 => exact ended h
  | case2 top below fresh c cs f hn => exact Loop.run_error (groupTurn_fault h hn)
  | case3 top below fresh c cs b' n hn ih =>
    obtain ⟨rfl, rfl⟩ := eq_opening_of_next hn
    rw [Loop.run_next (groupTurn_opening h), ih (drop_add h 0) (fresh_next h hn), ofTail_map_add]
  | case4 fresh c cs b' n hn =>
    obtain ⟨rfl, rfl⟩ := eq_closing_of_next hn
    exact Loop.run_done ((groupTurn_closing h).trans (if_pos rfl))
  | case5 fresh c cs b' n hn b'' below ih =>
    obtain ⟨rfl, rfl⟩ := eq_closing_of_next hn
    rw [Loop.run_next ((groupTurn_closing h).trans (if_pos rfl)), List.tail_cons,
      ih (drop_add h 0) (fresh_next h hn), ofTail_map_add]
  | case6 top below fresh c cs b' n hn hb =>
    obtain ⟨rfl, rfl⟩ := eq_closing_of_next hn
    rw [Loop.run_error ((groupTurn_closing h).trans (if_neg hb))]
    exact congrArg Except.error (stop_at h _).symm
  | case7 top below fresh c cs item n ho hc hn ih =>
    obtain ⟨j, hj, rfl | ⟨hd, hr⟩⟩ := groupTurn_item h hf hn (Item.isBracket_eq_false ho hc)
    · rw [Loop.run_next hj, ih (drop_add h n) (fresh_next h hn), Nat.add_assoc, Nat.add_comm 1 n,
        ofTail_map_add]
    · -- the cursor is past the end, and the group has no end on either side
      rw [Loop.run_next hj, ended hd, hr, closingTail]
      rfl

/-- Behind an opening bracket a token starts. -/
theorem fresh_opening (h : t.drop i = b.opening :: cs) : Fresh t (i + 1) true :=
  fresh_next h (show Lexeme true (.opening b) [b.opening] cs from .opening).next

/-- **The group at an opening bracket** ends where the reader of a front says. -/
theorem groupEnd_eq (h : t.drop i = b.opening :: cs) :
    groupEnd t i = ofTail t (i + 1) (b.groupTail cs) := by
  rw [groupEnd, charAt_of_drop h, ok_bind, Bracket.ofOpening?_opening, Bracket.groupTail]
  exact groupLoop_eq (drop_succ h) (fresh_opening h) (stop_at h _)

/-- No token starts behind a group. -/
theorem fresh_group {m : Nat} (h : t.drop i = b.opening :: cs)
    (hg : b.groupTail cs = .ok m) : Fresh t (i + 1 + m) false := by
  intro _
  obtain ⟨g, r, rfl, rfl, hgr⟩ := groupTail_ok hg
  rw [take_of_drop h, List.take_left]
  exact hgr.tokenStartsAfter _

end

/-! ## Trivia and blanks -/

theorem slice_eq (t : Text) (i j : Nat) : slice t i j = (t.drop i).take (j - i) := List.drop_take

section
variable {t cs : Text} {i : Nat} {c : CodePoint}

theorem slice_of_drop (h : t.drop i = c :: cs) (n : Nat) :
    slice t i (i + 1 + n) = c :: cs.take n := by
  rw [slice_eq, h, show i + 1 + n - i = n + 1 by omega, List.take_succ_cons]

/-- A turn at a character that is no white space. -/
theorem triviaTurn_of_not_space (h : t.drop i = c :: cs) (hc : isSpace c = false) :
    triviaTurn t i =
      if opensBlock t i then do return .next () (← commentEnd t i)
      else if c = '#' then .ok (.next () (lineEnd t i))
      else if c = backtick ∧ (cs.head? = some (.char '\n') ∨ cs.head? = some (.char '\r')) then
        .ok (.next () (i + 2))
      else .ok (.done i) := by
  have hcut (d : CodePoint) : slice t (i + 1) (i + 2) = [d] ↔ cs.head? = some d := by
    rw [slice_eq, drop_succ h, show i + 2 - (i + 1) = 1 by omega]
    cases cs <;> simp
  have hn : slice t (i + 1) (i + 2) = "\n" ↔ cs.head? = some (.char '\n') := hcut '\n'
  have hr : slice t (i + 1) (i + 2) = "\r" ↔ cs.head? = some (.char '\r') := hcut '\r'
  rw [triviaTurn, if_pos (lt_of_drop h), charAt_of_drop h, ok_bind, if_neg (by simp [hc])]
  simp only [hn, hr]
  rfl

/-- **The trivia at an index**, which may be past the end. -/
theorem skipTrivia_eq (t : Text) (i : Nat) :
    skipTrivia t i = ofTail t i (triviaLength (t.drop i)) := by
  generalize h : t.drop i = cs
  unfold skipTrivia
  fun_induction triviaLength cs generalizing i with
  | case1 => exact Loop.run_done (if_neg (Nat.not_lt.2 (List.drop_eq_nil_iff.1 h)))
  | case2 c cs hc ih =>
    have ht : triviaTurn t i = .ok (.next () (i + 1)) := by
      simp [triviaTurn, lt_of_drop h, charAt_of_drop h, hc]
    exact (Loop.run_next ht).trans ((ih (i + 1) (drop_succ h)).trans (ofTail_map_add ..).symm)
  | case3 c cs hc f hf =>
    rcases commentTail?_some h hf with ⟨-, hb, he⟩ | ⟨-, -, n, hn, -⟩
    · refine Loop.run_error ((triviaTurn_of_not_space h (by simpa using hc)).trans ?_)
      rw [if_pos hb, he]
      rfl
    · cases hn
  | case4 c cs hc n hn ih =>
    have ht : triviaTurn t i = .ok (.next () (i + 1 + n)) := by
      rw [triviaTurn_of_not_space h (by simpa using hc)]
      rcases commentTail?_some h hn with ⟨-, hb, he⟩ | ⟨-, rfl, m, hm, he⟩
      · rw [if_pos hb, he]
        rfl
      · cases hm
        rw [opensBlock_eq_false (charAt_of_drop h) (by decide), he]
        rfl
    refine (Loop.run_next ht).trans ((ih (i + 1 + n) (drop_add h n)).trans ?_)
    rw [ofTail_map_add, Nat.add_comm n, Nat.add_assoc]
  | case5 c cs hc hn hb ih =>
    have ht : triviaTurn t i = .ok (.next () (i + 2)) := by
      rw [triviaTurn_of_not_space h (by simpa using hc), opensBlock_of_none h hn,
        if_neg Bool.false_ne_true, if_neg ((commentTail?_none hn).2 rfl), if_pos hb]
    exact (Loop.run_next ht).trans ((ih (i + 2) (drop_add h 1)).trans (ofTail_map_add ..).symm)
  | case6 c cs hc hn hb =>
    refine Loop.run_done ((triviaTurn_of_not_space h (by simpa using hc)).trans ?_)
    rw [opensBlock_of_none h hn, if_neg Bool.false_ne_true, if_neg ((commentTail?_none hn).2 rfl),
      if_neg hb]
    rfl

theorem slice_cons {s : Text} {limit : Nat} (h : slice t i limit = c :: s) :
    i < limit ∧ charAt t i = .ok c ∧ slice t (i + 1) limit = s := by
  have hi : i < limit := by
    refine Nat.lt_of_not_le fun hl => ?_
    rw [slice_eq, Nat.sub_eq_zero_of_le hl, List.take_zero] at h
    cases h
  rw [slice_eq, show limit - i = limit - (i + 1) + 1 by omega] at h
  cases hd : t.drop i with
  | nil =>
    rw [hd, List.take_nil] at h
    cases h
  | cons d cs =>
    rw [hd, List.take_succ_cons] at h
    cases h
    exact ⟨hi, charAt_of_drop hd, by rw [slice_eq, drop_succ hd]⟩

/-- The white space at an index, below a limit in the text. -/
theorem skipSpaces_eq {limit : Nat} (hl : limit ≤ t.length) (i : Nat) :
    skipSpaces t limit i = .ok (i + ((slice t i limit).takeWhile isSpace).length) := by
  generalize h : slice t i limit = s
  unfold skipSpaces
  induction s generalizing i with
  | nil =>
    have hi : ¬ i < limit := by
      have := congrArg List.length h
      rw [slice_eq, List.length_take, List.length_drop, List.length_nil] at this
      omega
    exact Loop.run_done (if_neg hi)
  | cons c s ih =>
    obtain ⟨hi, hc, hs⟩ := slice_cons h
    by_cases hsp : isSpace c = true
    · have ht : spacesTurn t limit i = .ok (.next () (i + 1)) := by simp [spacesTurn, hi, hc, hsp]
      refine (Loop.run_next ht).trans ((ih (i + 1) hs).trans ?_)
      rw [List.takeWhile_cons_of_pos hsp, List.length_cons, Nat.add_assoc, Nat.add_comm 1]
    · have ht : spacesTurn t limit i = .ok (.done i) := by simp [spacesTurn, hi, hc, hsp]
      rw [List.takeWhile_cons_of_neg hsp]
      exact Loop.run_done ht

end

end Cursor

end CondParam
