import CondParam.Proofs.CursorScan
import CondParam.Script.Cursor.Read

/-!
# Annotations by index

The scanners of an annotation do what the readers of a front do: arguments are split at the same
commas and into the same kept texts (`argumentsAt_eq`), and a tag takes the same groups, its
annotation's closing bracket among them (`tagLoop_eq`, `afterTagAt_eq`). So an annotation is read
alike, and the character asked for past the end is the one right behind the text
(`annotationAt_eq`).
-/

set_option autoImplicit false

namespace CondParam

/-! ## Pieces -/

/-- The piece in a text that starts `k` characters earlier. -/
def Piece.shift (k : Nat) (p : Piece) : Piece := ⟨k + p.start, p.text⟩

theorem piecesFrom_shift (k offset : Nat) (piece : Piece) (spans : List Span) :
    piecesFrom (k + offset) (piece.shift k) spans =
      (piecesFrom offset piece spans).map (.shift k) := by
  induction spans generalizing offset piece with
  | nil => rfl
  | cons span spans ih =>
    cases span with
    | code t =>
      rw [piecesFrom, piecesFrom, Nat.add_assoc]
      exact ih (offset + t.length) ⟨piece.start, piece.text ++ t⟩
    | comment t =>
      rw [piecesFrom, piecesFrom, Nat.add_assoc]
      exact ih (offset + t.length) piece
    | comma =>
      rw [piecesFrom, piecesFrom, List.map_cons, Nat.add_assoc]
      exact congrArg _ (ih (offset + 1) ⟨offset + 1, []⟩)

/-- Pieces start in the text that is cut. -/
theorem start_le_of_mem_piecesFrom {offset : Nat} {piece p : Piece} {spans : List Span}
    (h : p ∈ piecesFrom offset piece spans) (hs : piece.start ≤ offset) :
    p.start ≤ offset + (spans.flatMap Span.source).length := by
  induction spans generalizing offset piece with
  | nil =>
    cases List.mem_singleton.1 h
    exact hs
  | cons span spans ih =>
    rw [List.flatMap_cons, List.length_append, ← Nat.add_assoc]
    cases span with
    | code t => exact ih h (Nat.le_add_right_of_le hs)
    | comment t => exact ih h (Nat.le_add_right_of_le hs)
    | comma =>
      rcases List.mem_cons.1 h with rfl | h
      · omega
      · exact ih h (Nat.le_refl _)

theorem mem_piecesFrom_of_mem {p : Piece} {spans : List Span} (h : p ∈ argumentPieces spans) :
    p ∈ piecesFrom 0 ⟨0, []⟩ spans := by
  unfold argumentPieces at h
  split at h
  · rename_i he
    split at h
    · cases h
    · rwa [he]
  · exact h

/-- An error of reading by its offset. -/
def ReadError.stop (t : Text) : ReadError → Cursor.Stop
  | .fault f => f.stop t
  | .overrun => .outside t.length

namespace Cursor

/-- A value that is read at `i`, and the cursor behind it. -/
def ofRead {α : Type} (i : Nat) (r : Read α) : At α := ⟨r.value, i + r.length⟩

section
variable {t cs : Text} {i : Nat}

theorem readPieces_shift {k left : Nat} {ps : List Piece} (hk : k + left = t.length)
    (hp : ∀ p ∈ ps, p.start ≤ left) :
    readPieces (ps.map (.shift k)) = (readArguments left ps).mapError (Fault.stop t) := by
  induction ps with
  | nil => rfl
  | cons p ps ih =>
    obtain ⟨hp, hps⟩ := List.forall_mem_cons.1 hp
    rw [List.map_cons, readPieces, readArguments, Piece.shift]
    cases readArgument p.text with
    | error reason =>
      refine congrArg Except.error ?_
      show Stop.fault reason (k + p.start) = .fault reason (t.length - (left - p.start))
      congr 1
      omega
    | ok a =>
      simp only [ih hps]
      cases readArguments left ps <;> rfl

theorem finish_eq {st : Splitting} {k stop : Nat} {spans : List Span}
    (h : st.pieces ++ [⟨st.pieceStart, st.keptTo t stop⟩] =
      (piecesFrom 0 ⟨0, []⟩ spans).map (.shift k)) :
    st.finish t stop = (argumentPieces spans).map (.shift k) := by
  rw [argumentPieces, Splitting.finish]
  generalize piecesFrom 0 ⟨0, []⟩ spans = ps at h
  rcases ps with _ | ⟨p, _ | ⟨p', ps⟩⟩
  · simp at h
  · obtain ⟨hpieces, hlast⟩ : st.pieces = [] ∧ ⟨st.pieceStart, st.keptTo t stop⟩ = p.shift k := by
      simpa [List.append_eq_singleton_iff] using h
    have htext : st.keptTo t stop = p.text := congrArg Piece.text hlast
    rw [hpieces, hlast, htext]
    by_cases hb : p.text.isBlank = true <;> simp [hb]
  · have hne : st.pieces ≠ [] := by
      intro he
      have := congrArg List.length h
      rw [he] at this
      simp at this
    rw [if_neg (by simp [hne]), h]

/-! ## Splitting -/

theorem slice_add {seg : Nat} (hs : seg ≤ i) (hi : i ≤ t.length) (n : Nat) :
    slice t seg (i + n) = slice t seg i ++ (t.drop i).take n := by
  rw [slice, List.take_add, List.drop_append_of_le_length (by rw [List.length_take]; omega), slice]

theorem keptTo_add {st : Splitting} (hs : st.segmentStart ≤ i) (hi : i ≤ t.length) (n : Nat) :
    st.keptTo t (i + n) = st.keptTo t i ++ (t.drop i).take n := by
  rw [Splitting.keptTo, slice_add hs hi, ← List.append_assoc, Splitting.keptTo]

theorem keptTo_self {st : Splitting} (hs : st.segmentStart = i) : st.keptTo t i = st.kept := by
  rw [Splitting.keptTo, hs, slice_eq, Nat.sub_self, List.take_zero, List.append_nil]

section
variable {c : CodePoint} {stop n : Nat} {fresh : Bool} {st : Splitting}

theorem splitTurn_comma (h : t.drop i = .char ',' :: cs) (hi : i < stop) :
    splitTurn t stop st i = .ok (.next
      ⟨st.pieces ++ [⟨st.pieceStart, st.keptTo t i⟩], [], i + 1, i + 1⟩ (i + 1)) := by
  have ho := opensString_of_ne h (show isQuote ',' = false by decide) (by decide)
  have hb := opensBlock_eq_false (charAt_of_drop h) (show CodePoint.char ',' ≠ '<' by decide)
  have hl : opensLine t i ',' = .ok false := opensLine_of_ne (by decide)
  have hop : Bracket.ofOpening? ',' = none := rfl
  have hbt : CodePoint.char ',' ≠ backtick := by decide
  simp [splitTurn, hi, charAt_of_drop h, ho, opensComment, hb, hl, hop, hbt]

/-- A turn over a comment that ends before the list does. -/
theorem splitTurn_comment (h : t.drop i = c :: cs) (hf : Fresh t i fresh)
    (hn : Item.next fresh c cs = .ok (.comment, n)) (hi : i + 1 + n ≤ stop) :
    splitTurn t stop st i = .ok (.next
      { st with kept := st.keptTo t i, segmentStart := i + 1 + n } (i + 1 + n)) := by
  have hlt : i < stop := by omega
  have hd := charAt_of_drop h
  have hs := sees h fresh
  rw [hn] at hs
  cases hs with
  | block hc hb he =>
    subst hc
    obtain ⟨-, ho, hop⟩ := comment_start h (.inl rfl)
    simp [splitTurn, hlt, hd, ho, opensComment, hb, hop, commentEndBelow, he]
  | line hfr hc he =>
    subst hc
    obtain ⟨-, ho, hop⟩ := comment_start h (.inr rfl)
    have hb := opensBlock_eq_false hd (by decide)
    have hend : min (lineEnd t i) stop = i + 1 + n := by rw [he, Nat.min_eq_left hi]
    simp [splitTurn, hlt, hd, ho, opensComment, hb, opensLine_eq h hf, hfr, hop, commentEndBelow,
      hend]

/-- A turn over a group. -/
theorem splitTurn_group {b : Bracket} (h : t.drop i = b.opening :: cs) (hi : i < stop)
    (hg : b.groupTail cs = .ok n) : splitTurn t stop st i = .ok (.next st (i + 1 + n)) := by
  have ho := (bracket_start h (.inl rfl)).1
  have he : groupEnd t i = .ok (i + 1 + n) := by
    rw [groupEnd_eq h, hg]
    rfl
  simp [splitTurn, hi, charAt_of_drop h, ho, he]

/-- A turn over another item, with text behind it. -/
theorem splitTurn_item {item : Item} (h : t.drop i = c :: cs) (hf : Fresh t i fresh) (hi : i < stop)
    (hn : Item.next fresh c cs = .ok (item, n)) (hb : item.isBracket = false)
    (hc : item ≠ .comment) (hp : item ≠ .plain ',') (hr : cs.drop n ≠ []) :
    splitTurn t stop st i = .ok (.next st (i + 1 + n)) := by
  have hd := charAt_of_drop h
  obtain ⟨hob, hol⟩ := not_comment_of_next h hn hc
  have hoc : opensComment t i c = .ok false := by
    rw [opensComment, hob, opensLine_eq h hf]
    simpa using hol
  have hs := sees h fresh
  rw [hn] at hs
  cases hs with
  | string _ ho he => simp [splitTurn, hi, hd, ho, he]
  | block | line => exact absurd rfl hc
  | escape hbt =>
    subst hbt
    obtain ⟨ho, -, -⟩ := escape_start h
    have hop : Bracket.ofOpening? backtick = none := by decide
    cases cs with
    | nil => exact absurd rfl hr
    | cons d cs => simp [splitTurn, hi, hd, ho, hop, hoc]
  | opening | closing => cases hb
  | plain hpl ho _ =>
    have hcomma : c ≠ ',' := by
      rintro rfl
      exact hp rfl
    simp [splitTurn, hi, hd, ho, hpl.notOpening, hoc, hpl.notEscape, hcomma]

end

/-- **The loop over arguments** cuts a list as the reader of a front does. -/
theorem splitLoop_run {stop : Nat} {fresh : Bool} {spans : List Span} {s rest : Text}
    (h : ArgumentList fresh spans s) (st : Splitting) (hd : t.drop i = s ++ rest)
    (hf : Fresh t i fresh) (hs : i + s.length = stop + 1) (hseg : st.segmentStart ≤ i) :
    ∃ st', (splitLoop t stop).run st i = .ok st' ∧
      st'.pieces ++ [⟨st'.pieceStart, st'.keptTo t stop⟩] =
        st.pieces ++ piecesFrom i ⟨st.pieceStart, st.keptTo t i⟩ spans := by
  -- `st.keptTo t i` is the open piece cut at the cursor; the reader carries that text instead
  induction h generalizing i st with
  | close =>
    obtain rfl : i = stop := by
      rw [List.length_singleton] at hs
      omega
    exact ⟨st, Loop.run_done (if_neg (Nat.lt_irrefl i)), rfl⟩
  | @comma fresh spans r hr ih =>
    have hl := hr.length_pos
    rw [List.length_cons] at hs
    rw [List.cons_append] at hd
    have hn : Item.next fresh ',' (r ++ rest) = .ok (.plain ',', 0) :=
      Item.next_ordinary (by decide) _
    have ht : splitTurn t stop st i = _ := splitTurn_comma hd (by omega)
    obtain ⟨st', hrun, hp⟩ := ih
      ⟨st.pieces ++ [⟨st.pieceStart, st.keptTo t i⟩], [], i + 1, i + 1⟩ (drop_succ hd)
      (fresh_next hd hn) (by omega) (Nat.le_refl _)
    refine ⟨st', (Loop.run_next ht).trans hrun, hp.trans ?_⟩
    rw [keptTo_self rfl, piecesFrom, List.append_assoc]
    rfl
  | @comment fresh spans s r hl hr ih =>
    have hl := hl.append rest hr.groupRest.ne_nil
    obtain ⟨c, s, rfl⟩ := List.exists_cons_of_ne_nil hl.ne_nil
    have hpos := hr.length_pos
    rw [List.append_assoc] at hd
    rw [List.length_append, List.length_cons] at hs
    have ht : splitTurn t stop st i = _ := splitTurn_comment hd hf hl.next (by omega)
    obtain ⟨st', hrun, hp⟩ := ih
      { st with kept := st.keptTo t i, segmentStart := i + 1 + s.length }
      ((drop_add hd _).trans (List.drop_left ..)) (fresh_next hd hl.next) (by omega) (Nat.le_refl _)
    refine ⟨st', (Loop.run_next ht).trans hrun, hp.trans ?_⟩
    rw [keptTo_self rfl, piecesFrom, List.length_cons, Nat.add_assoc, Nat.add_comm 1]
  | @item fresh item spans s r hl hb hc hp hr ih =>
    have hl := hl.append rest hr.groupRest.ne_nil
    obtain ⟨c, s, rfl⟩ := List.exists_cons_of_ne_nil hl.ne_nil
    have hpos := hr.length_pos
    rw [List.append_assoc, List.cons_append] at hd
    rw [List.length_append, List.length_cons] at hs
    have ht : splitTurn t stop st i = _ := splitTurn_item hd hf (by omega) hl.next hb hc hp (by
      rw [List.drop_left]
      exact List.append_ne_nil_of_left_ne_nil hr.groupRest.ne_nil _)
    obtain ⟨st', hrun, hp⟩ := ih st ((drop_add hd _).trans (List.drop_left ..))
      (fresh_next hd hl.next) (by omega) (by omega)
    refine ⟨st', (Loop.run_next ht).trans hrun, hp.trans ?_⟩
    rw [Nat.add_assoc, keptTo_add hseg (Nat.le_of_lt (lt_of_drop hd)), hd, piecesFrom,
      List.length_cons, Nat.add_comm 1, List.take_succ_cons, List.take_left]
  | @group b fresh spans g r hg hr ih =>
    have hpos := hr.length_pos
    rw [List.cons_append, List.append_assoc] at hd
    rw [List.length_cons, List.length_append] at hs
    have hgt := hg.groupTail (r ++ rest)
    have ht : splitTurn t stop st i = _ := splitTurn_group hd (by omega) hgt
    obtain ⟨st', hrun, hp⟩ := ih st ((drop_add hd _).trans (List.drop_left ..)) (fresh_group hd hgt)
      (by omega) (by omega)
    refine ⟨st', (Loop.run_next ht).trans hrun, hp.trans ?_⟩
    rw [Nat.add_assoc, keptTo_add hseg (Nat.le_of_lt (lt_of_drop hd)), hd, piecesFrom,
      List.length_cons, Nat.add_comm 1, List.take_succ_cons, List.take_left]

/-- **The arguments in parentheses** are those the reader of a front splits. -/
theorem argumentsAt_eq {n : Nat} (h : t.drop i = .char '(' :: cs)
    (hg : Bracket.paren.groupTail cs = .ok n) :
    argumentsAt t (i + 1) (i + n) = (splitArguments ⟨cs, n⟩).mapError (Fault.stop t) := by
  obtain ⟨spans, hspans, hlist, hsource⟩ := exists_argumentSpans hg
  obtain ⟨g, rest, rfl, rfl, -⟩ := groupTail_ok hg
  rw [List.take_left] at hlist
  obtain ⟨st, hrun, hp⟩ := splitLoop_run hlist ⟨[], [], i + 1, i + 1⟩ (drop_succ h)
    (fresh_opening (b := .paren) h) (show i + 1 + g.length = i + g.length + 1 by omega)
    (Nat.le_refl _)
  rw [keptTo_self rfl, List.nil_append] at hp
  have hfinish := finish_eq (hp.trans (piecesFrom_shift (i + 1) 0 ⟨0, []⟩ spans))
  have hlen := length_of_drop h
  have hi := lt_of_drop h
  rw [argumentsAt, hrun, ok_bind, hfinish, splitArguments_eq hspans]
  refine readPieces_shift (by omega) fun p hp => ?_
  have := start_le_of_mem_piecesFrom (mem_piecesFrom_of_mem hp) (Nat.le_refl 0)
  rw [hsource, List.length_take] at this
  omega

/-! ## Tags -/

theorem tagLoop_eq {close : Nat} (hc : close ≤ t.length) (h : t.drop i = cs) :
    (tagLoop t close).run () i = ofTail t i (tagGroupsLength (t.length - close) cs) := by
  have below {i : Nat} {c : CodePoint} {cs : Text} (h : t.drop i = c :: cs) :
      t.length - close < cs.length + 1 ↔ i < close := by
    rw [length_of_drop h]
    have := lt_of_drop h
    omega
  fun_induction tagGroupsLength (t.length - close) cs generalizing i with
  | case1 =>
    have hi := List.drop_eq_nil_iff.1 h
    exact Loop.run_done (if_neg (by omega))
  | case2 c cs hlt f hg =>
    obtain ⟨rfl, hlt⟩ := hlt
    have he := groupEnd_eq (b := .square) h
    rw [hg] at he
    have ht : tagTurn t close i = .error (f.stop t) := by
      simp [tagTurn, (below h).1 hlt, charAt_of_drop h, he, ofTail]
    exact Loop.run_error ht
  | case3 c cs hlt n hg ih =>
    obtain ⟨rfl, hlt⟩ := hlt
    have he := groupEnd_eq (b := .square) h
    rw [hg] at he
    have ht : tagTurn t close i = .ok (.next () (i + 1 + n)) := by
      simp [tagTurn, (below h).1 hlt, charAt_of_drop h, he, ofTail]
    rw [Loop.run_next ht, ih (drop_add h n), ofTail_map_add, Nat.add_comm n, Nat.add_assoc]
  | case4 c cs hn =>
    have ht : tagTurn t close i = .ok (.done i) := by
      by_cases hi : i < close
      · have hc : c ≠ '[' := fun hc => hn ⟨hc, (below h).2 hi⟩
        simp [tagTurn, hi, charAt_of_drop h, hc]
      · simp [tagTurn, hi]
    exact Loop.run_done ht

theorem tagNameLength_closing (x r : Text) :
    tagNameLength (x ++ .char ']' :: r) = tagNameLength x := by
  cases x with
  | nil => rfl
  | cons c x =>
    rw [List.cons_append, tagNameLength, tagNameLength, takeWhile_append_cons (by decide)]

section
variable {close j : Nat} {r : Text}

theorem drop_eq_slice_append (hj : j ≤ close) : t.drop j = slice t j close ++ t.drop close := by
  rw [slice_eq, show t.drop close = (t.drop j).drop (close - j) by
    rw [List.drop_drop, Nat.add_sub_cancel' hj], List.take_append_drop]

/-- White space before the closing bracket ends there at the latest. -/
theorem skipSpaces_below (hc : t.drop close = .char ']' :: r) (hj : j ≤ close) :
    ∃ k, skipSpaces t close j = .ok k ∧ k ≤ close ∧ t.drop k = (t.drop j).dropWhile isSpace := by
  have hw : (t.drop j).takeWhile isSpace = (slice t j close).takeWhile isSpace := by
    rw [drop_eq_slice_append hj, hc, takeWhile_append_cons (by decide)]
  refine ⟨_, skipSpaces_eq (Nat.le_of_lt (lt_of_drop hc)) j, ?_, ?_⟩
  · have hl := (List.takeWhile_prefix (l := slice t j close) isSpace).length_le
    rw [slice_eq, List.length_take] at hl
    rw [slice_eq]
    omega
  · rw [← List.drop_drop, ← hw, Text.drop_takeWhile]

theorem skipSpaces_beyond (hj : close ≤ j) : skipSpaces t close j = .ok j :=
  Loop.run_done (if_neg (Nat.not_lt.2 hj))

/-- Behind a tag the scanner comes to where the reader of a front does. -/
theorem skipSpaces_after (hc : t.drop close = .char ']' :: r) (hj : j ≤ t.length) :
    ∃ k, skipSpaces t close j = .ok k ∧ k ≤ t.length ∧ t.drop k =
      if (t.drop j).length < t.length - close then t.drop j else (t.drop j).dropWhile isSpace := by
  have hl := lt_of_drop hc
  by_cases hcj : j ≤ close
  · obtain ⟨k, hk, hkc, hd⟩ := skipSpaces_below hc hcj
    rw [if_neg (by rw [List.length_drop]; omega)]
    exact ⟨k, hk, by omega, hd⟩
  · rw [if_pos (by rw [List.length_drop]; omega)]
    exact ⟨j, skipSpaces_beyond (by omega), hj, rfl⟩

/-- Behind arguments it comes to the closing bracket if the reader does. -/
theorem skipSpaces_close (hc : t.drop close = .char ']' :: r) (j : Nat) :
    ∃ k, skipSpaces t close j = .ok k ∧
      (k = close ↔ ((t.drop j).dropWhile isSpace).length = t.length - close) := by
  have hl := lt_of_drop hc
  by_cases hcj : j ≤ close
  · obtain ⟨k, hk, hkc, hd⟩ := skipSpaces_below hc hcj
    refine ⟨k, hk, ?_⟩
    rw [← hd, List.length_drop]
    omega
  · refine ⟨j, skipSpaces_beyond (by omega), ?_⟩
    have hle := (List.dropWhile_suffix (l := t.drop j) isSpace).length_le
    rw [List.length_drop] at hle
    omega

/-- **What follows a tag** is read as the reader of a front reads it; the character that is not
there is the one right behind the text. -/
theorem afterTagAt_eq {tag extent : Text} (hc : t.drop close = .char ']' :: r) (hj : j ≤ t.length) :
    afterTagAt t tag extent close j =
      (readAfterTag tag extent (t.length - close) (t.drop j)).mapError (ReadError.stop t) := by
  obtain ⟨k, hk, hkl, hd⟩ := skipSpaces_after hc hj
  have hl := lt_of_drop hc
  have hclose : (t.drop k).length = t.length - close ↔ k = close := by
    rw [List.length_drop]
    omega
  rw [afterTagAt, hk, ok_bind, readAfterTag, argumentsAfterTag, ← hd]
  simp only [hclose]
  by_cases hkc : k = close
  · rw [if_pos hkc, if_pos hkc]
    rfl
  · rw [if_neg hkc, if_neg hkc]
    cases hdk : t.drop k with
    | nil =>
      obtain rfl : k = t.length := Nat.le_antisymm hkl (List.drop_eq_nil_iff.1 hdk)
      rw [charAt_of_drop_nil hdk]
      rfl
    | cons c args =>
      rw [charAt_of_drop hdk, ok_bind]
      by_cases hcp : c = '('
      · subst hcp
        simp only [if_true]
        rw [groupEnd_eq (b := .paren) hdk]
        cases hg : Bracket.paren.groupTail args with
        | error f => rfl
        | ok n =>
          obtain ⟨k', hk', hiff⟩ := skipSpaces_close hc (k + 1 + n)
          rw [drop_add hdk] at hiff
          have hn : n ≤ args.length := by
            obtain ⟨g, r, rfl, rfl, -⟩ := groupTail_ok hg
            exact (List.prefix_append g r).length_le
          simp only [ofTail, ok_bind, hk', ← hiff]
          by_cases hkc' : k' = close
          · rw [if_pos hkc', if_pos hkc', show k + 1 + n - 1 = k + n by omega,
              argumentsAt_eq hdk hg]
            simp only [annotationOf]
            cases splitArguments ⟨args, n⟩ <;> rfl
          · have hlen := length_of_drop hdk
            have hstop := stop_drop (t := t) (i := k + 1 + n) (by omega) .textAfterArguments
            rw [drop_add hdk] at hstop
            rw [if_neg hkc', if_neg hkc']
            exact congrArg Except.error hstop.symm
      · simp only [hcp, if_false]
        exact congrArg Except.error (stop_at hdk _).symm

end

/-! ## Annotations -/

/-- The group of an annotation ends with the closing bracket. -/
theorem drop_close {n : Nat} (h : t.drop i = .char '[' :: cs)
    (hg : Bracket.square.groupTail cs = .ok n) : 0 < n ∧ ∃ r, t.drop (i + n) = .char ']' :: r := by
  obtain ⟨g, r, rfl, rfl, hgr⟩ := groupTail_ok hg
  obtain ⟨x, rfl⟩ := hgr.closing_suffix
  refine ⟨List.length_pos_iff.2 hgr.ne_nil, r, ?_⟩
  rw [List.length_append, List.length_singleton,
    show i + (x.length + 1) = i + 1 + x.length by omega, drop_add h, List.append_assoc,
    List.drop_left]
  rfl

/-- **The annotation at a square bracket** is the one that the reader of a front reads behind it. -/
theorem annotationAt_eq (h : t.drop i = .char '[' :: cs) :
    annotationAt t i =
      (Except.mapError (ReadError.stop t) <| Except.map (ofRead (i + 1)) <| readAnnotation cs) := by
  rw [annotationAt, groupEnd_eq (b := .square) h]
  unfold readAnnotation readTag
  cases hg : Bracket.square.groupTail cs with
  | error f => rfl
  | ok n =>
    obtain ⟨hpos, r, hc⟩ := drop_close h hg
    obtain ⟨k, hk, hkc, hbody⟩ := skipSpaces_below hc (show i + 1 ≤ i + n by omega)
    rw [drop_succ h] at hbody
    have hname : tagNameLength (slice t k (i + n)) = tagNameLength (cs.dropWhile isSpace) := by
      rw [← hbody, drop_eq_slice_append hkc, hc, tagNameLength_closing]
    have hleft : (cs.drop (n - 1)).length = t.length - (i + n) := by
      rw [← drop_add h, List.length_drop]
      omega
    have hkl := Nat.le_trans hkc (Nat.le_of_lt (lt_of_drop hc))
    simp only [ofTail, ok_bind, show i + 1 + n - 1 = i + n by omega, hk, hname, hleft]
    cases hm : tagNameLength (cs.dropWhile isSpace) with
    | zero =>
      rw [← hbody]
      exact congrArg Except.error (stop_drop hkl _).symm
    | succ m =>
      have hd : t.drop (k + (m + 1)) = (cs.dropWhile isSpace).drop (m + 1) := by
        rw [← List.drop_drop, hbody]
      simp only [tagLoop_eq (Nat.le_of_lt (lt_of_drop hc)) hd]
      cases hgs : tagGroupsLength (t.length - (i + n)) ((cs.dropWhile isSpace).drop (m + 1)) with
      | error f => rfl
      | ok l =>
        obtain ⟨name, _, hn, hnl, -⟩ := tagNameLength_ok (hm.trans_ne (Nat.succ_ne_zero m))
        obtain ⟨groups, _, hgr, hgl, -⟩ := tagGroupsLength_ok hgs
        have hname := add_le_length hkl (hbody.trans hn) (hnl.trans hm)
        have hj := add_le_length hname (hd.trans hgr) hgl
        have htag : slice t k (k + (m + 1) + l) = (cs.dropWhile isSpace).take (m + 1 + l) := by
          rw [slice_eq, hbody]
          congr 1
          omega
        have hrest : t.drop (k + (m + 1) + l) = (cs.dropWhile isSpace).drop (m + 1 + l) := by
          rw [Nat.add_assoc, ← List.drop_drop, hbody]
        simp only [ofTail, ok_bind, htag, slice_of_drop h, afterTagAt_eq hc hj, hrest]
        cases readAfterTag ((cs.dropWhile isSpace).take (m + 1 + l)) (.char '[' :: cs.take n)
          (t.length - (i + n)) ((cs.dropWhile isSpace).drop (m + 1 + l)) <;> rfl

/-- **Annotations and the trivia behind them.** -/
theorem annotationsLoop_eq (annotations : List Annotation) (h : t.drop i = cs) :
    (annotationsLoop t).run annotations i =
      ((readAnnotations cs).map fun v => ⟨annotations ++ v.value, i + v.length⟩).mapError
        (ReadError.stop t) := by
  have ended {i : Nat} {annotations : List Annotation}
      (h : (t.drop i).head? ≠ some (.char '[')) :
      (annotationsLoop t).run annotations i = .ok ⟨annotations, i⟩ := by
    refine Loop.run_done ?_
    show annotationsTurn t annotations i = _
    rw [annotationsTurn, peek_eq, ok_bind, if_neg h]
    rfl
  have turn {i : Nat} {annotations : List Annotation} {cs : Text} (h : t.drop i = .char '[' :: cs) :
      annotationsTurn t annotations i = annotationAt t i >>= fun a =>
        skipTrivia t a.cursor >>= fun j => .ok (.next (annotations ++ [a.value]) j) := by
    rw [annotationsTurn, peek_eq, h, ok_bind, List.head?_cons, if_pos rfl]
    rfl
  fun_induction readAnnotations cs generalizing i annotations with
  | case1 =>
    rw [ended (by simp [h])]
    simp [Except.map, Except.mapError]
  | case2 cs e he =>
    refine Loop.run_error ((turn h).trans ?_)
    rw [annotationAt_eq h, he]
    rfl
  | case3 cs first hfirst f hf =>
    refine Loop.run_error ((turn h).trans ?_)
    rw [annotationAt_eq h, hfirst]
    show (skipTrivia t (i + 1 + first.length) >>= _) = _
    rw [skipTrivia_eq, drop_add h, hf]
    rfl
  | case4 cs first hfirst n hn ih =>
    have ht : annotationsTurn t annotations i =
        .ok (.next (annotations ++ [first.value]) (i + 1 + first.length + n)) := by
      rw [turn h, annotationAt_eq h, hfirst]
      show (skipTrivia t (i + 1 + first.length) >>= _) = _
      rw [skipTrivia_eq, drop_add h, hn]
      rfl
    rw [Loop.run_next ht, Nat.add_assoc, ih _ (drop_add h _)]
    cases readAnnotations (cs.drop (first.length + n)) with
    | error e => rfl
    | ok rest =>
      refine congrArg Except.ok (congrArg₂ At.mk ?_ ?_)
      · simp
      · show i + 1 + (first.length + n) + rest.length = i + (rest.length + (first.length + n + 1))
        omega
  | case5 c cs hc =>
    rw [ended (by rw [h]; simpa using hc)]
    simp [Except.map, Except.mapError]

end

end Cursor

end CondParam
