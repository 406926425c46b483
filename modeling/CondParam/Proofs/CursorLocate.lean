import CondParam.Proofs.CursorScan
import CondParam.Script.Cursor.Read

/-!
# Finding the block by index

The search for the block, over indices, finds what the reader of a front finds (`locate_eq`). The
reader carries along whether a dot stands before the text; the scanner looks back at the character
before a keyword. The two differ only behind a line comment, where a newline follows.
-/

set_option autoImplicit false

namespace CondParam

namespace Cursor

/-- The block that is found, and the index of its parenthesis. -/
def ofLocated (t : Text) (l : Located) : At (List Text) :=
  ⟨l.attributes, t.length - l.rest.length - 1⟩

section
variable {t cs : Text} {i : Nat} {c : CodePoint}

/-! ## Dots -/

/-- Where a character other than a newline stands, `dot` tells whether a dot stands before it. -/
def Dotted (t : Text) (i : Nat) (dot : Bool) : Prop :=
  ∀ c ∈ (t.drop i).head?, c ≠ '\n' → ((t.take i).getLast? == some (.char '.')) = dot

theorem afterDot_eq (h : i ≤ t.length) :
    afterDot t i = .ok ((t.take i).getLast? == some (.char '.')) := by
  cases i with
  | zero => rfl
  | succ i =>
    have hi : i < t.length := h
    rw [afterDot, if_neg (Nat.succ_ne_zero i), Nat.add_sub_cancel,
      charAt_eq_ok.2 (List.getElem?_eq_getElem hi), ok_bind, List.take_succ_eq_append_getElem hi,
      List.getLast?_concat]
    rfl

theorem afterDot_of_dotted {dot : Bool} (h : t.drop i = c :: cs) (hd : Dotted t i dot)
    (hc : isSpace c = false) : afterDot t i = .ok dot := by
  rw [afterDot_eq (Nat.le_of_lt (lt_of_drop h)), hd c (by rw [h]; rfl)]
  rintro rfl
  revert hc
  decide

theorem dotted_of_suffix {d : CodePoint} {n : Nat} (h : t.drop i = c :: cs)
    (hs : [d] <:+ c :: cs.take n) : Dotted t (i + 1 + n) (d == '.') := by
  intro _ _ _
  obtain ⟨u, hu⟩ := hs
  rw [take_of_drop h, ← hu, ← List.append_assoc, List.getLast?_concat]
  rfl

theorem dotted_of_newline {dot : Bool} (h : t.drop i = [] ∨ (t.drop i).head? = some (.char '\n')) :
    Dotted t i dot := by
  rintro c hc hn
  rcases h with h | h
  · rw [h] at hc
    cases hc
  · rw [h] at hc
    cases hc
    exact absurd rfl hn

theorem dotted_string {fresh : Bool} {n : Nat} (h : t.drop i = c :: cs)
    (hn : Item.next fresh c cs = .ok (.string, n)) : Dotted t (i + 1 + n) false := by
  obtain ⟨s, r, rfl, rfl, hl⟩ := Item.next_ok hn
  obtain ⟨d, hd, hq⟩ := hl.string_suffix
  have hdot : (d == '.') = false := by
    rcases hq with hq | rfl
    · simp only [isQuote, Bool.or_eq_true, beq_iff_eq] at hq
      rcases hq with rfl | rfl <;> rfl
    · rfl
  rw [← hdot]
  exact dotted_of_suffix h (by rwa [List.take_left])

theorem dotted_comment {fresh : Bool} {n : Nat} (h : t.drop i = c :: cs)
    (hn : Item.next fresh c cs = .ok (.comment, n)) : Dotted t (i + 1 + n) false := by
  obtain ⟨s, r, rfl, rfl, hl⟩ := Item.next_ok hn
  rcases hl.comment_suffix with hs | hr
  · exact dotted_of_suffix (d := '>') h (by rwa [List.take_left])
  · refine dotted_of_newline ?_
    rwa [drop_add h, List.drop_left]

/-- A word has no dot at its end. -/
theorem dotted_word (h : t.drop i = c :: cs) (hc : isCommandChar c = true) :
    Dotted t (i + 1 + (cs.takeWhile isCommandChar).length) false := by
  have hw : ∀ d ∈ c :: cs.takeWhile isCommandChar, isCommandChar d = true :=
    List.forall_mem_cons.2 ⟨hc, fun d hd => List.mem_takeWhile_imp hd⟩
  obtain ⟨u, d, hu⟩ : ∃ u d, c :: cs.takeWhile isCommandChar = u ++ [d] :=
    (List.eq_nil_or_concat' _).resolve_left (List.cons_ne_nil _ _)
  have hd : (d == '.') = false := by
    have hdot : isCommandChar '.' = false := by decide +kernel
    refine beq_eq_false_iff_ne.2 fun he => ?_
    rw [← he, hw d (by rw [hu]; simp)] at hdot
    cases hdot
  rw [← hd]
  refine dotted_of_suffix h ?_
  rw [← List.prefix_iff_eq_take.1 (List.takeWhile_prefix _), hu]
  exact ⟨u, rfl⟩

/-! ## Turns of the search -/

theorem afterKeyword?_eq_none (hc : c.toLower ≠ 'p') (cs : Text) :
    afterKeyword? (c :: cs) = none := by
  rw [afterKeyword?, if_neg]
  intro h
  exact hc (List.cons.inj h).1

/-- What the tests of the search say at a character that starts no string or comment and opens no
square group. -/
structure Wordlike (t : Text) (i : Nat) (c : CodePoint) : Prop where
  block : opensBlock t i = false
  line : c ≠ '#'
  string : opensString t i c = .ok false
  square : c ≠ '['

theorem wordlike {item : Item} {n : Nat} (h : t.drop i = c :: cs)
    (hn : Item.next true c cs = .ok (item, n)) (hcomment : item ≠ .comment)
    (hstring : item ≠ .string) (hsquare : item ≠ .opening .square) : Wordlike t i c := by
  obtain ⟨hb, hl⟩ := not_comment_of_next h hn hcomment
  suffices hr : opensString t i c = .ok false ∧ c ≠ '[' from
    ⟨hb, fun hc => hl ⟨hc, rfl⟩, hr.1, hr.2⟩
  have hs := sees h true
  rw [hn] at hs
  cases hs with
  | string => exact absurd rfl hstring
  | block | line => exact absurd rfl hcomment
  | escape hc =>
    subst hc
    exact ⟨(escape_start h).1, by decide⟩
  | @opening b hc =>
    subst hc
    refine ⟨(bracket_start h (.inl rfl)).1, ?_⟩
    cases b with
    | square => exact absurd rfl hsquare
    | paren | brace => decide
  | @closing b hc =>
    subst hc
    exact ⟨(bracket_start h (.inr rfl)).1, by cases b <;> decide⟩
  | plain hp ho _ =>
    refine ⟨ho, ?_⟩
    rintro rfl
    cases hp.notOpening

theorem locateTurn_space {pending : List Text} (h : t.drop i = c :: cs) (hc : isSpace c = true) :
    locateTurn t pending i = .ok (.next pending (i + 1)) := by
  simp [locateTurn, lt_of_drop h, charAt_of_drop h, hc]

theorem locateTurn_word {pending : List Text} (h : t.drop i = c :: cs) (hw : Wordlike t i c)
    (hc : isSpace c = false) (hk : keywordEnd? t i = none ∨ afterDot t i = .ok true) :
    locateTurn t pending i = .ok (.next [] (wordEnd t i c)) := by
  simp only [locateTurn, lt_of_drop h, charAt_of_drop h, hc, hw.block, hw.line, hw.string,
    hw.square, ok_bind, if_true, if_false, Bool.false_eq_true]
  rcases hk with hk | hk
  · rw [hk]
    rfl
  · cases keywordEnd? t i with
    | none => rfl
    | some e =>
      simp only [hk, ok_bind]
      rfl

theorem locateTurn_square {pending : List Text} (h : t.drop i = .char '[' :: cs) :
    locateTurn t pending i =
      groupEnd t i >>= fun e => .ok (.next (pending ++ [slice t i e]) e) := by
  obtain ⟨ho, hb, -, -⟩ := bracket_start (b := .square) h (.inl rfl)
  have hsp : isSpace '[' = false := by decide
  simp only [locateTurn, lt_of_drop h, charAt_of_drop h, hsp, hb, ho, ok_bind, if_true, if_false,
    Bool.false_eq_true, CodePoint.char.injEq, Char.reduceEq]
  rfl

/-- Where the reader of a front sees no keyword, the scanner sees none, or a dot before it. -/
theorem no_keyword {dot : Bool} (h : t.drop i = c :: cs) (hd : Dotted t i dot)
    (hc : isSpace c = false) (hk : (if dot then none else afterKeyword? (c :: cs)) = none) :
    keywordEnd? t i = none ∨ afterDot t i = .ok true := by
  cases dot with
  | true => exact .inr (afterDot_of_dotted h hd hc)
  | false =>
    rw [keywordEnd?, h, show afterKeyword? (c :: cs) = none from hk]
    exact .inl rfl

theorem ne_backtick_of_next {fresh : Bool} {item : Item} {n : Nat}
    (hn : Item.next fresh c cs = .ok (item, n)) (he : ∀ d, item ≠ .escape d) : c ≠ backtick := by
  rintro rfl
  obtain ⟨hs, hc⟩ := tails_eq_none fresh cs (show isQuote backtick = false by decide) (by decide)
  rw [Item.next, hs, hc, if_pos rfl] at hn
  cases hn
  exact he _ rfl

/-- The index behind a word. -/
theorem wordEnd_eq (h : t.drop i = c :: cs) (hc : c ≠ backtick) :
    wordEnd t i c = i + 1 +
      if isCommandChar c then (cs.takeWhile isCommandChar).length else 0 := by
  rw [wordEnd, if_neg hc, h]
  split
  · rename_i hw
    rw [List.takeWhile_cons_of_pos hw, List.length_cons]
    omega
  · rename_i hw
    rw [List.takeWhile_cons_of_neg hw]
    rfl

/-- The search from an index on, with the attributes found so far. -/
theorem locateLoop_eq {pending : List Text} {dot : Bool} (h : t.drop i = cs) (hd : Dotted t i dot) :
    (locateLoop t).run pending i =
      ((locateFrom pending dot cs).map (Option.map (ofLocated t))).mapError (Fault.stop t) := by
  fun_induction locateFrom pending dot cs generalizing i with
  | case1 => exact Loop.run_done (if_neg (Nat.not_lt.2 (List.drop_eq_nil_iff.1 h)))
  | case2 pending dot c cs f hn =>
    refine Loop.run_error ?_
    show locateTurn t pending i = .error (f.stop t)
    have hs := sees h true
    rw [hn] at hs
    cases hs with
    | badString hc ho he =>
      obtain ⟨hsp, hb, hh⟩ := string_start h hc
      simp [locateTurn, lt_of_drop h, charAt_of_drop h, hsp, hb, hh, ho, he]
    | badBlock hc hb he =>
      obtain ⟨hsp, -, -⟩ := comment_start h (.inl hc)
      simp [locateTurn, lt_of_drop h, charAt_of_drop h, hsp, hb, he]
  | case3 pending dot c cs n hn ih =>
    have ht : locateTurn t pending i = .ok (.next pending (i + 1 + n)) := by
      have hs := sees h true
      rw [hn] at hs
      cases hs with
      | block hc hb he =>
        obtain ⟨hsp, -, -⟩ := comment_start h (.inl hc)
        simp [locateTurn, lt_of_drop h, charAt_of_drop h, hsp, hb, he]
      | line _ hc he =>
        subst hc
        obtain ⟨hsp, -, -⟩ := comment_start h (.inr rfl)
        have hb := opensBlock_eq_false (charAt_of_drop h) (show CodePoint.char '#' ≠ '<' by decide)
        simp [locateTurn, lt_of_drop h, charAt_of_drop h, hsp, hb, he]
    exact (Loop.run_next ht).trans (ih (drop_add h n) (dotted_comment h hn))
  | case4 pending dot c cs n hn ih =>
    have ht : locateTurn t pending i = .ok (.next [] (i + 1 + n)) := by
      have hs := sees h true
      rw [hn] at hs
      cases hs with
      | string hc ho he =>
        obtain ⟨hsp, hb, hh⟩ := string_start h hc
        simp [locateTurn, lt_of_drop h, charAt_of_drop h, hsp, hb, hh, ho, he]
    exact (Loop.run_next ht).trans (ih (drop_add h n) (dotted_string h hn))
  | case5 pending dot c cs n hn f hg =>
    obtain ⟨rfl, rfl⟩ := eq_opening_of_next hn
    refine Loop.run_error ((locateTurn_square h).trans ?_)
    rw [groupEnd_eq h, hg]
    rfl
  | case6 pending dot c cs n hn m hg ih =>
    obtain ⟨rfl, rfl⟩ := eq_opening_of_next hn
    have ht : locateTurn t pending i =
        .ok (.next (pending ++ [Bracket.square.opening :: cs.take m]) (i + 1 + m)) := by
      rw [← slice_of_drop h, locateTurn_square h, groupEnd_eq h, hg]
      rfl
    refine (Loop.run_next ht).trans (ih (drop_add h m) ?_)
    obtain ⟨g, r, rfl, rfl, hgr⟩ := groupTail_ok hg
    refine dotted_of_suffix (d := ']') h ?_
    rw [List.take_left]
    exact hgr.closing_suffix.trans (List.suffix_cons _ _)
  | case7 pending dot c cs d n hn ih =>
    have hs := sees h true
    rw [hn] at hs
    have hw := wordlike h hn (by simp) (by simp) (by simp)
    cases hs with
    | escape hc =>
      subst hc
      have hk : keywordEnd? t i = none := by
        rw [keywordEnd?, h, afterKeyword?_eq_none (by decide)]
        rfl
      refine (Loop.run_next (locateTurn_word h hw (by decide) (.inl hk))).trans ?_
      show (locateLoop t).run [] (i + 2) = _
      cases cs with
      | nil =>
        -- the cursor is past the end, where no character asks for a dot
        exact ih (drop_add h 1) (dotted_of_newline (.inl (drop_add h 1)))
      | cons d cs => exact ih (drop_add h 1) (dotted_of_suffix (n := 1) h ⟨[backtick], rfl⟩)
  | case8 pending dot c cs item n hcomment hstring hsquare hescape hn hc ih =>
    refine (Loop.run_next (locateTurn_space h hc)).trans (ih (drop_succ h) ?_)
    have hdot : (c == '.') = false := beq_eq_false_iff_ne.2 (by rintro rfl; revert hc; decide)
    rw [← hdot]
    exact dotted_of_suffix (n := 0) h List.suffix_rfl
  | case9 pending dot c cs item n hcomment hstring hsquare hescape hn hc rest hk =>
    have hw := wordlike h hn hcomment hstring hsquare
    rw [Bool.not_eq_true] at hc
    have hdot := afterDot_of_dotted h hd hc
    cases dot with
    | true => cases hk
    | false =>
      have he : keywordEnd? t i = some (t.length - rest.length) := by
        rw [keywordEnd?, h, show afterKeyword? (c :: cs) = some rest from hk]
        rfl
      refine Loop.run_done ?_
      show locateTurn t pending i = _
      simp [locateTurn, lt_of_drop h, charAt_of_drop h, hc, hw.block, hw.line, hw.string, hw.square,
        he, hdot, ofLocated]
  | case10 pending dot c cs item n hcomment hstring hsquare hescape hn hc hk hcmd ih =>
    have hw := wordlike h hn hcomment hstring hsquare
    rw [Bool.not_eq_true] at hc
    rw [Loop.run_next (locateTurn_word h hw hc (no_keyword h hd hc hk)),
      wordEnd_eq h (ne_backtick_of_next hn hescape), if_pos hcmd]
    exact ih (drop_add h _) (dotted_word h hcmd)
  | case11 pending dot c cs item n hcomment hstring hsquare hescape hn hc hk hcmd ih =>
    have hw := wordlike h hn hcomment hstring hsquare
    rw [Bool.not_eq_true] at hc
    rw [Loop.run_next (locateTurn_word h hw hc (no_keyword h hd hc hk)),
      wordEnd_eq h (ne_backtick_of_next hn hescape), if_neg hcmd]
    exact ih (drop_succ h) (dotted_of_suffix (n := 0) h List.suffix_rfl)

/-- **The block is found** where the reader of a front finds it. -/
theorem locate_eq (t : Text) :
    locate t = ((locateBlock t).map (Option.map (ofLocated t))).mapError (Fault.stop t) :=
  locateLoop_eq List.drop_zero fun _ _ _ => rfl

end

end Cursor

end CondParam
