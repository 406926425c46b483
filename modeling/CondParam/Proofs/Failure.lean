import CondParam.Proofs.Declaration
import CondParam.Proofs.Locate
import CondParam.Script.Read

/-!
# How reading fails

A fault lies in the text that was being read: no more characters are left from its place on than the
text has (`Script.read_error`), so its position is on a line of the text
(`Fault.position_liesBetween`).
-/

set_option autoImplicit false

namespace CondParam

/-! ## Faults of the scanners -/

theorem error_of_map {ε α β : Type} {f : α → β} {x : Except ε α} {e : ε}
    (h : x.map f = .error e) : x = .error e := by
  cases x with
  | error e' => cases h; rfl
  | ok a => cases h

/-- What lies in a later part of a text lies in the text. -/
theorem le_length_cons_of_drop {n k : Nat} {c : CodePoint} {cs : Text}
    (h : k ≤ (cs.drop n).length) : k ≤ (c :: cs).length := by
  rw [List.length_drop] at h
  rw [List.length_cons]
  omega

theorem stringTail?_fault {c : CodePoint} {cs : Text} {f : Fault}
    (h : stringTail? c cs = some (.error f)) : f.left = cs.length + 1 := by
  unfold stringTail? at h
  split at h
  · split at h <;> cases h
    rfl
  · split at h
    · split at h <;> cases h
      rfl
    · cases h

theorem commentTail?_fault {fresh : Bool} {c : CodePoint} {cs : Text} {f : Fault}
    (h : commentTail? fresh c cs = some (.error f)) : f.left = cs.length + 1 := by
  unfold commentTail? at h
  split at h
  · split at h <;> cases h
    rfl
  · split at h <;> cases h

/-- An item that cannot be read is at fault where it starts. -/
theorem Item.next_fault {fresh : Bool} {c : CodePoint} {cs : Text} {f : Fault}
    (h : Item.next fresh c cs = .error f) : f.left = (c :: cs).length := by
  unfold Item.next at h
  split at h
  · cases h
  · rename_i f' hf
    cases h
    exact stringTail?_fault hf
  · split at h
    · cases h
    · rename_i f' hf
      cases h
      exact commentTail?_fault hf
    · split at h
      · cases h
      · split at h <;> cases h

/-- The measuring of a group fails where it stands, or because the group does not end. -/
theorem closingTail_fault {u : Fault} {top : Bracket} {below : List Bracket} {fresh : Bool}
    {t : Text} {f : Fault} (h : closingTail u top below fresh t = .error f) :
    f = u ∨ f.left ≤ t.length := by
  fun_induction closingTail u top below fresh t with
  | case1 => cases h; exact .inl rfl
  | case2 top below fresh c cs f' hn => cases h; exact .inr (Nat.le_of_eq (Item.next_fault hn))
  | case3 top below fresh c cs b n hn ih =>
    exact (ih (error_of_map h)).imp_right le_length_cons_of_drop
  | case4 => cases h
  | case5 fresh c cs b n hn b' below ih =>
    exact (ih (error_of_map h)).imp_right le_length_cons_of_drop
  | case6 => cases h; exact .inr (Nat.le_refl _)
  | case7 top below fresh c cs item n ho hc hn ih =>
    exact (ih (error_of_map h)).imp_right le_length_cons_of_drop

theorem groupTail_fault {b : Bracket} {cs : Text} {f : Fault} (h : b.groupTail cs = .error f) :
    f.left ≤ cs.length + 1 := by
  rcases closingTail_fault h with rfl | hl
  · exact Nat.le_refl _
  · exact Nat.le_succ_of_le hl

theorem triviaLength_fault {t : Text} {f : Fault} (h : triviaLength t = .error f) :
    f.left ≤ t.length := by
  fun_induction triviaLength t with
  | case1 => cases h
  | case2 c cs hc ih => exact Nat.le_succ_of_le (ih (error_of_map h))
  | case3 c cs hc f' hf => cases h; exact Nat.le_of_eq (commentTail?_fault hf)
  | case4 c cs hc n hn ih => exact le_length_cons_of_drop (ih (error_of_map h))
  | case5 c cs hc hn hb ih => exact le_length_cons_of_drop (ih (error_of_map h))
  | case6 => cases h

theorem expressionReach_fault {fresh : Bool} {t : Text} {f : Fault}
    (h : expressionReach fresh t = .error f) : f.left ≤ t.length := by
  fun_induction expressionReach fresh t with
  | case1 => cases h
  | case2 => cases h
  | case3 fresh c cs hc f' hn => cases h; exact Nat.le_of_eq (Item.next_fault hn)
  | case4 fresh c cs hc n hn ih => exact le_length_cons_of_drop (ih (error_of_map h))
  | case5 fresh c cs hc b n hn f' hg => cases h; exact groupTail_fault hg
  | case6 fresh c cs hc b n hn k hg ih => exact le_length_cons_of_drop (ih (error_of_map h))
  | case7 => cases h; exact Nat.le_refl _
  | case8 | case9 =>
    rename_i ih
    exact le_length_cons_of_drop (ih (error_of_map h))

theorem argumentSpans_fault {stop : Nat} {fresh : Bool} {t : Text} {f : Fault}
    (h : argumentSpans stop fresh t = .error f) : f.left ≤ t.length := by
  fun_induction argumentSpans stop fresh t with
  | case1 => cases h
  | case2 => cases h
  | case3 fresh c cs hc f' hn => cases h; exact Nat.le_of_eq (Item.next_fault hn)
  | case4 fresh c cs hc n hn ih => exact le_length_cons_of_drop (ih (error_of_map h))
  | case5 fresh c cs hc b n hn f' hg => cases h; exact groupTail_fault hg
  | case6 fresh c cs hc b n hn k hg ih => exact le_length_cons_of_drop (ih (error_of_map h))
  | case7 | case8 =>
    rename_i ih
    exact le_length_cons_of_drop (ih (error_of_map h))

theorem readArguments_fault {left : Nat} {pieces : List Piece} {f : Fault}
    (h : readArguments left pieces = .error f) : f.left ≤ left := by
  induction pieces with
  | nil => cases h
  | cons piece pieces ih =>
    rw [readArguments] at h
    split at h
    · cases h
      exact Nat.sub_le _ _
    · exact ih (error_of_map h)

theorem tagGroupsLength_fault {close : Nat} {t : Text} {f : Fault}
    (h : tagGroupsLength close t = .error f) : f.left ≤ t.length := by
  fun_induction tagGroupsLength close t with
  | case1 => cases h
  | case2 c cs hc f' hg => cases h; exact groupTail_fault hg
  | case3 c cs hc n hn ih => exact le_length_cons_of_drop (ih (error_of_map h))
  | case4 => cases h

theorem readVariable_fault {t : Text} {f : Fault} (h : readVariable t = .error f) :
    f.left ≤ t.length := by
  unfold readVariable at h
  split at h
  · split at h <;> cases h
    exact Nat.le_refl _
  · split at h <;> cases h
    exact Nat.le_refl _
  · cases h
    exact Nat.le_refl _

theorem locateFrom_fault {old : List Text} {d : Bool} {t : Text} {f : Fault}
    (h : locateFrom old d t = .error f) : f.left ≤ t.length := by
  fun_induction locateFrom old d t with
  | case1 => cases h
  | case2 old d c cs f' hn => cases h; exact Nat.le_of_eq (Item.next_fault hn)
  | case5 old d c cs k hn f' hg => cases h; exact groupTail_fault hg
  | case9 => cases h
  | case3 | case4 | case6 | case7 | case10 =>
    rename_i ih
    exact le_length_cons_of_drop (ih h)
  | case8 | case11 =>
    rename_i ih
    exact Nat.le_succ_of_le (ih h)

/-! ## Errors of the readers -/

/-- Where an error comes from: a fault lies in the text, and a character is asked for past the end
while an annotation of the text is read. -/
def ReadError.LiesIn (t : Text) : ReadError → Prop
  | fault f => f.left ≤ t.length
  | overrun => ∃ cs, .char '[' :: cs <:+ t ∧ readAnnotation cs = .error .overrun

theorem ReadError.LiesIn.mono {s t : Text} {e : ReadError} (h : e.LiesIn s) (hs : s <:+ t) :
    e.LiesIn t := by
  cases e with
  | fault f => exact Nat.le_trans h hs.length_le
  | overrun =>
    obtain ⟨cs, hc, ho⟩ := h
    exact ⟨cs, hc.trans hs, ho⟩

theorem ReadError.LiesIn.of_drop {n : Nat} {t : Text} {e : ReadError} (h : e.LiesIn (t.drop n)) :
    e.LiesIn t :=
  h.mono (List.drop_suffix n t)

/-- What is looked at behind a tag is no more than what stands there. -/
theorem length_afterTag_le (close : Nat) (rest : Text) :
    (if rest.length < close then rest else rest.dropWhile isSpace).length ≤ rest.length := by
  split
  · exact Nat.le_refl _
  · exact (List.dropWhile_suffix _).length_le

theorem argumentsAfterTag_fault {rest : Text} {close : Nat} {f : Fault}
    (h : argumentsAfterTag close rest = .error (.fault f)) : f.left ≤ rest.length := by
  unfold argumentsAfterTag at h
  refine Nat.le_trans ?_ (length_afterTag_le close rest)
  generalize (if rest.length < close then rest else rest.dropWhile isSpace) = after at h ⊢
  simp only at h
  split at h
  · cases h
  · split at h
    · cases h
    · split at h
      · split at h
        · rename_i f' hg
          cases h
          exact groupTail_fault hg
        · split at h
          · cases h
          · cases h
            exact le_length_cons_of_drop (Nat.le_refl _)
      · cases h
        exact Nat.le_refl _

theorem splitArguments_fault {list : Read Text} {f : Fault} (h : splitArguments list = .error f) :
    f.left ≤ list.value.length := by
  unfold splitArguments at h
  split at h
  · rename_i f' hs
    cases h
    exact argumentSpans_fault hs
  · exact readArguments_fault h

theorem readAfterTag_fault {tag extent rest : Text} {close : Nat} {f : Fault}
    (h : readAfterTag tag extent close rest = .error (.fault f)) : f.left ≤ rest.length := by
  unfold readAfterTag at h
  split at h
  · rename_i e he
    cases h
    exact argumentsAfterTag_fault he
  · rename_i list hl
    rcases argumentsAfterTag_cases rfl with ⟨-, he⟩ | ⟨args, n, ha, -, -, he⟩ | ⟨-, he⟩ | ⟨_, he⟩
    · cases he.symm.trans hl
      cases h
    · cases he.symm.trans hl
      simp only [annotationOf] at h
      split at h
      · rename_i hs
        cases h
        have hle := length_afterTag_le close rest
        rw [ha, List.length_cons] at hle
        exact Nat.le_trans (splitArguments_fault hs) (Nat.le_of_succ_le hle)
      · cases h
    · cases he.symm.trans hl
    · cases he.symm.trans hl

theorem readTag_fault {cs : Text} {f : Fault} (h : readTag cs = .error f) :
    f.left ≤ cs.length + 1 := by
  have hd : (cs.dropWhile isSpace).length ≤ cs.length := (List.dropWhile_suffix _).length_le
  unfold readTag at h
  split at h
  · rename_i f' hg
    cases h
    exact groupTail_fault hg
  · simp only at h
    split at h
    · cases h
      exact Nat.le_succ_of_le hd
    · split at h
      · rename_i f' hm
        cases h
        have hl := tagGroupsLength_fault hm
        rw [List.length_drop] at hl
        omega
      · cases h

theorem readAnnotation_error {cs : Text} {e : ReadError} (h : readAnnotation cs = .error e) :
    e.LiesIn (.char '[' :: cs) := by
  cases e with
  | overrun => exact ⟨cs, List.suffix_rfl, h⟩
  | fault f =>
    refine (show f.left ≤ cs.length + 1 from ?_)
    rcases readTag_cases cs with ⟨f', hf⟩ |
      ⟨g, r, w, name, groups, rest, rfl, -, ht, -, -, -, -, he⟩
    · unfold readAnnotation at h
      rw [hf] at h
      cases h
      exact readTag_fault hf
    · unfold readAnnotation at h
      rw [he] at h
      have hl : f.left ≤ rest.length := readAfterTag_fault (error_of_map h)
      have hs := congrArg List.length ht
      simp only [List.length_append] at hs ⊢
      omega

theorem readAnnotations_error {t : Text} {e : ReadError} (h : readAnnotations t = .error e) :
    e.LiesIn t := by
  fun_induction readAnnotations t with
  | case1 => cases h
  | case2 cs e' ha => cases h; exact readAnnotation_error ha
  | case3 cs first hf f hk =>
    cases h
    exact le_length_cons_of_drop (triviaLength_fault hk)
  | case4 cs first hf k hk ih =>
    exact (ih (error_of_map h)).of_drop.mono (List.suffix_cons _ _)
  | case5 => cases h

theorem readDefault_error {t name : Text} {declared : Nat} {as : List Annotation} {e : ReadError}
    (h : readDefault t declared name as = .error e) : e.LiesIn t := by
  have hle : ∀ {n k : Nat}, k ≤ (t.drop n).length → k ≤ t.length := by
    intro n k hk
    exact Nat.le_trans hk (List.drop_suffix n t).length_le
  unfold readDefault at h
  split at h
  · rename_i f hk
    cases h
    exact hle (triviaLength_fault hk)
  · split at h
    · split at h
      · rename_i f hk
        cases h
        exact hle (triviaLength_fault hk)
      · simp only at h
        split at h
        · rename_i f hr
          cases h
          exact hle (expressionReach_fault hr)
        · split at h
          · cases h
            exact hle (Nat.le_refl _)
          · cases h
    · cases h

theorem readParameter_error {t : Text} {e : ReadError} (h : readParameter t = .error e) :
    e.LiesIn t := by
  unfold readParameter at h
  split at h
  · rename_i e' ha
    cases h
    exact readAnnotations_error ha
  · split at h
    · rename_i f hv
      cases h
      exact Nat.le_trans (readVariable_fault hv) (List.drop_suffix _ t).length_le
    · exact readDefault_error h

theorem readDeclarations_error {unclosed : Fault} {t : Text} {e : ReadError}
    (h : readDeclarations unclosed t = .error e) : e = .fault unclosed ∨ e.LiesIn t := by
  fun_induction readDeclarations unclosed t with
  | case1 => cases h; exact .inl rfl
  | case2 => cases h
  | case3 c cs hc e' hp => cases h; exact .inr (readParameter_error hp)
  | case4 c cs hc first hf rest f hk =>
    cases h
    exact .inr (ReadError.LiesIn.of_drop (e := .fault f) (triviaLength_fault hk))
  | case5 => cases h; exact .inl rfl
  | case6 => cases h
  | case7 c cs hc first hf rest k hk hh f hk' =>
    cases h
    exact .inr (ReadError.LiesIn.of_drop (e := .fault f) (triviaLength_fault hk')).of_drop.of_drop
  | case8 c cs hc first hf rest k hk hh k' hk' =>
    rename_i ih
    exact (ih (error_of_map h)).imp_right fun hl => hl.of_drop.of_drop.of_drop.of_drop
  | case9 c cs hc first hf rest k hk d =>
    cases h
    exact .inr (ReadError.LiesIn.of_drop (e := .fault _) (Nat.le_refl _)).of_drop

theorem readBlock_error {t : Text} {e : ReadError} (c : CodePoint) (h : readBlock t = .error e) :
    e.LiesIn (c :: t) := by
  unfold readBlock at h
  split at h
  · rename_i f hk
    cases h
    exact Nat.le_succ_of_le (triviaLength_fault hk)
  · rcases readDeclarations_error h with rfl | hl
    · exact Nat.le_refl _
    · exact hl.of_drop.mono (List.suffix_cons _ _)

/-- **Errors lie in the text.** -/
theorem Script.read_error {t : Text} {e : ReadError} (h : Script.read t = .error e) :
    e.LiesIn t := by
  unfold Script.read at h
  split at h
  · rename_i f hl
    cases h
    exact locateFrom_fault hl
  · cases h
  · rename_i l hl
    obtain ⟨pre, kw, rfl, -, -⟩ := locateFrom_ok hl
    refine (readBlock_error (.char '(') (error_of_map h)).mono ?_
    exact ⟨pre ++ kw, by simp⟩

/-! ## Positions -/

/-- A place in a text, between what is `before` it and what is `after` it: its line and column are
counted over what is before it, and it is on a line of the text, at most one column behind it. -/
structure Position.LiesBetween (p : Position) (before after : Text) : Prop where
  line : p.line = before.count (.char '\n') + 1
  column : ∃ full start, before = full ++ start ∧ (full = [] ∨ [.char '\n'] <:+ full) ∧
    .char '\n' ∉ start ∧ p.column = start.length + 1
  onLine : ∃ l, (Text.splitOn '\n' (before ++ after))[p.line - 1]? = some l ∧
    p.column ≤ l.length + 1

/-- The last line of a text, and the full lines before it. -/
theorem exists_lastLine (t : Text) :
    ∃ full start, t = full ++ start ∧ (full = [] ∨ [.char '\n'] <:+ full) ∧
      .char '\n' ∉ start ∧ (t.reverse.takeWhile (· ≠ .char '\n')).length = start.length := by
  refine ⟨(t.reverse.dropWhile (· ≠ .char '\n')).reverse,
    (t.reverse.takeWhile (· ≠ .char '\n')).reverse, ?_, ?_, ?_, by simp⟩
  · rw [← List.reverse_append, List.takeWhile_append_dropWhile, List.reverse_reverse]
  · cases h : t.reverse.dropWhile (· ≠ .char '\n') with
    | nil => exact .inl rfl
    | cons c cs =>
      have hc := List.head?_dropWhile_not (· ≠ .char '\n') t.reverse
      rw [h] at hc
      obtain rfl : c = .char '\n' := by simpa using hc
      exact .inr ⟨cs.reverse, by simp⟩
  · intro hm
    have := List.mem_takeWhile_imp (List.mem_reverse.1 hm)
    simp at this

/-- **Places are on lines of the text.** -/
theorem Position.after_liesBetween (before after : Text) :
    (Position.after before).LiesBetween before after := by
  obtain ⟨full, start, rfl, hfull, hstart, hlen⟩ := exists_lastLine before
  have hcolumn : (Position.after (full ++ start)).column = start.length + 1 :=
    congrArg (· + 1) hlen
  have hcount : start.count (.char '\n') = 0 := List.count_eq_zero.2 hstart
  have hline : (Text.splitOn '\n' (start ++ after))[0]? =
      some (start ++ after.takeWhile (· ≠ .char '\n')) := by
    rw [← List.head?_eq_getElem?, Text.head?_splitOn, List.takeWhile_append_of_pos]
    intro c hc
    have : c ≠ .char '\n' := fun h => hstart (h ▸ hc)
    simpa using this
  refine ⟨rfl, ⟨full, start, rfl, hfull, hstart, hcolumn⟩,
    start ++ after.takeWhile (· ≠ .char '\n'), ?_, ?_⟩
  · change (Text.splitOn '\n' _)[(full ++ start).count (.char '\n')]? = _
    rw [List.count_append, hcount, Nat.add_zero, List.append_assoc]
    rcases hfull with rfl | ⟨u, rfl⟩
    · exact hline
    · rw [List.append_assoc, List.singleton_append, Text.splitOn_append_cons,
        List.getElem?_append_right (by simp [Text.length_splitOn]), Text.length_splitOn]
      simpa using hline
  · rw [hcolumn, List.length_append]
    omega

/-- A fault of a text is between the text before it and the text left. -/
theorem Fault.position_liesBetween {t : Text} {f : Fault} (h : f.left ≤ t.length) :
    ∃ before after, t = before ++ after ∧ after.length = f.left ∧
      (f.position t).LiesBetween before after := by
  refine ⟨t.take (t.length - f.left), t.drop (t.length - f.left), ?_, ?_, ?_⟩
  · rw [List.take_append_drop]
  · rw [List.length_drop]
    omega
  · exact Position.after_liesBetween _ _

end CondParam
