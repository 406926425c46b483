import CondParam.Script.Item
import Mathlib.Data.List.TakeWhile

/-!
# Lexemes

`Lexeme fresh item s r`: with `r` behind it, `s` is the text of `item`. The relation spells out what
a string, a comment, an escape and a bracket look like, and which texts may follow them;
`Item.next` finds exactly these (`Lexeme.next`, `Item.next_ok`). Only the end of a lexeme depends on
`r`, so a lexeme keeps its meaning when more text is put behind it (`Lexeme.append`), when what
follows is cut off (`Lexeme.restrict`), and when it is moved in front of another text that cannot
extend it (`Lexeme.before`).
-/

set_option autoImplicit false

namespace CondParam

/-! ## Up to a mark -/

/-- The text ends with the first occurrence of `mark` in it. -/
inductive UpTo (mark : Text) : Text → Prop
  | here : UpTo mark mark
  | next {c : CodePoint} {s : Text} : ¬ mark <+: c :: s → UpTo mark s → UpTo mark (c :: s)

theorem UpTo.suffix {mark s : Text} (h : UpTo mark s) : mark <:+ s := by
  induction h with
  | here => exact List.suffix_rfl
  | next _ _ ih => exact ih.trans (List.suffix_cons _ _)

theorem UpTo.through {mark s : Text} (h : UpTo mark s) (r : Text) :
    Text.through mark (s ++ r) = some s.length := by
  induction h with
  | here =>
    cases mark with
    | nil => cases r <;> simp [Text.through]
    | cons c mark => simp [Text.through]
  | @next c s hp hs ih =>
    have hn : ¬ mark <+: c :: (s ++ r) := fun hm =>
      hp (List.prefix_of_prefix_length_le hm (List.prefix_append (c :: s) r)
        (by have := hs.suffix.length_le; simp only [List.length_cons]; omega))
    rw [← List.isPrefixOf_iff_prefix, Bool.not_eq_true] at hn
    simp [Text.through, hn, ih]

/-- A text ends with the first occurrence of the mark in one way. -/
theorem UpTo.append_inj {mark s s' r r' : Text} (h : UpTo mark s) (h' : UpTo mark s')
    (he : s ++ r = s' ++ r') : s = s' ∧ r = r' := by
  have hl := h.through r
  rw [he, h'.through r'] at hl
  exact List.append_inj he (Option.some.inj hl).symm

theorem through_some {mark t : Text} {n : Nat} (h : Text.through mark t = some n) :
    ∃ s r, t = s ++ r ∧ s.length = n ∧ UpTo mark s := by
  induction t generalizing n with
  | nil =>
    simp only [Text.through, List.isEmpty_iff] at h
    split at h
    · rename_i hm
      cases h
      exact ⟨[], [], rfl, rfl, hm ▸ .here⟩
    · cases h
  | cons c t ih =>
    simp only [Text.through] at h
    split at h
    · rename_i hm
      obtain ⟨r, hr⟩ := List.isPrefixOf_iff_prefix.1 hm
      cases h
      exact ⟨mark, r, hr.symm, rfl, .here⟩
    · rename_i hm
      obtain ⟨k, hk, rfl⟩ := Option.map_eq_some_iff.1 h
      obtain ⟨s, r, rfl, rfl, hs⟩ := ih hk
      refine ⟨c :: s, r, rfl, rfl, .next (fun hp => hm ?_) hs⟩
      exact List.isPrefixOf_iff_prefix.2 (hp.trans (List.prefix_append (c :: s) r))

theorem UpTo.single {c : CodePoint} {s : Text} (h : c ∉ s) : UpTo [c] (s ++ [c]) := by
  induction s with
  | nil => exact .here
  | cons d s ih =>
    simp only [List.mem_cons, not_or] at h
    refine .next ?_ (ih h.2)
    simpa using h.1

theorem UpTo.exists_single {c : CodePoint} {s : Text} (h : UpTo [c] s) :
    ∃ s', s = s' ++ [c] ∧ c ∉ s' := by
  induction h with
  | here => exact ⟨[], rfl, List.not_mem_nil⟩
  | @next d s hp _ ih =>
    obtain ⟨s', rfl, hs⟩ := ih
    have hd : c ≠ d := by simpa using hp
    exact ⟨d :: s', rfl, by simp [hd, hs]⟩

/-! ## Strings in quotes -/

/-- The rest of a string in quotes `q` behind its opening quote: doubled quotes, in double quotes
escaped characters, other characters, and the closing quote. -/
inductive QuotedRest (q : CodePoint) : Text → Prop
  | close : QuotedRest q [q]
  | escape {d : CodePoint} {s : Text} :
      q = '\x22' → QuotedRest q s → QuotedRest q (backtick :: d :: s)
  | double {s : Text} : QuotedRest q s → QuotedRest q (q :: q :: s)
  | other {c : CodePoint} {s : Text} :
      c ≠ q → ¬ (q = '\x22' ∧ c = backtick) → QuotedRest q s → QuotedRest q (c :: s)

theorem QuotedRest.mem {q : CodePoint} {s : Text} (h : QuotedRest q s) : q ∈ s := by
  induction h with
  | close => exact .head _
  | escape _ _ ih => exact .tail _ (.tail _ ih)
  | double _ _ => exact .head _
  | other _ _ _ ih => exact .tail _ ih

theorem QuotedRest.quotedTail {q : CodePoint} {s r : Text} (h : QuotedRest q s)
    (hr : r.head? ≠ some q) : quotedTail q (s ++ r) = some s.length := by
  have hb : ¬ (q = '\x22' ∧ q = backtick) := fun ⟨h₁, h₂⟩ => by subst h₁; revert h₂; decide
  induction h with
  | close =>
    cases r with
    | nil => simp [CondParam.quotedTail]
    | cons d r =>
      have hd : d ≠ q := by simpa using hr
      simp [CondParam.quotedTail, hb, hd]
  | escape hq _ ih =>
    rw [List.cons_append, List.cons_append, CondParam.quotedTail, if_pos ⟨hq, rfl⟩, ih]
    rfl
  | double _ ih => simp [CondParam.quotedTail, hb, ih]
  | @other c s hc hn hs ih =>
    obtain ⟨d, t, hd⟩ : ∃ d t, s ++ r = d :: t := by
      cases s with
      | nil => cases hs
      | cons d t => exact ⟨d, t ++ r, rfl⟩
    rw [List.cons_append, hd, CondParam.quotedTail, if_neg hn, if_neg hc, ← hd, ih]
    rfl

theorem quotedTail_some {q : CodePoint} {t : Text} {n : Nat} (h : quotedTail q t = some n) :
    ∃ s r, t = s ++ r ∧ s.length = n ∧ QuotedRest q s ∧ r.head? ≠ some q := by
  fun_induction quotedTail q t generalizing n with
  | case1 => cases h
  | case2 =>
    cases h
    exact ⟨[q], [], rfl, rfl, .close, by simp⟩
  | case3 => cases h
  | case4 c d cs hc ih =>
    obtain ⟨k, hk, rfl⟩ := Option.map_eq_some_iff.1 h
    obtain ⟨s, r, rfl, rfl, hs, hr⟩ := ih hk
    obtain ⟨hq, rfl⟩ := hc
    exact ⟨backtick :: d :: s, r, rfl, rfl, .escape hq hs, hr⟩
  | case5 cs hc ih =>
    obtain ⟨k, hk, rfl⟩ := Option.map_eq_some_iff.1 h
    obtain ⟨s, r, rfl, rfl, hs, hr⟩ := ih hk
    exact ⟨q :: q :: s, r, rfl, rfl, .double hs, hr⟩
  | case6 d cs hd hc =>
    cases h
    exact ⟨[q], d :: cs, rfl, rfl, .close, by simpa using hd⟩
  | case7 c d cs hn hc ih =>
    obtain ⟨k, hk, rfl⟩ := Option.map_eq_some_iff.1 h
    obtain ⟨s, r, hsr, rfl, hs, hr⟩ := ih hk
    exact ⟨c :: s, r, by rw [hsr]; rfl, rfl, .other hc hn hs, hr⟩

/-! ## Lexemes -/

/-- A character that is an item of its own, unless what follows makes it open a here-string or a
block comment. -/
structure IsPlain (fresh : Bool) (c : CodePoint) : Prop where
  notQuote : isQuote c = false
  notEscape : c ≠ backtick
  notOpening : Bracket.ofOpening? c = none
  notClosing : Bracket.ofClosing? c = none
  notComment : fresh = true → c ≠ '#'

/-- With `r` behind it, `s` is the text of `item`; `fresh` tells whether a token can start where `s`
does. -/
inductive Lexeme (fresh : Bool) : Item → Text → Text → Prop
  | quoted {q : CodePoint} {s r : Text} :
      isQuote q = true → QuotedRest q s → r.head? ≠ some q → Lexeme fresh .string (q :: s) r
  | here {q : CodePoint} {s r : Text} :
      isQuote q = true → UpTo ['\n', q, '@'] s →
      Text.isBlank (s.takeWhile (· ≠ .char '\n')) = true →
      Lexeme fresh .string ('@' :: q :: s) r
  | block {s r : Text} : UpTo ['#', '>'] s → Lexeme fresh .comment ('<' :: '#' :: s) r
  | line {s r : Text} :
      fresh = true → .char '\n' ∉ s → r = [] ∨ r.head? = some (.char '\n') →
      Lexeme fresh .comment ('#' :: s) r
  | escape {d : CodePoint} {r : Text} : Lexeme fresh (.escape (some d)) [backtick, d] r
  | lone : Lexeme fresh (.escape none) [backtick] []
  | opening {b : Bracket} {r : Text} : Lexeme fresh (.opening b) [b.opening] r
  | closing {b : Bracket} {r : Text} : Lexeme fresh (.closing b) [b.closing] r
  | plain {c : CodePoint} {r : Text} :
      IsPlain fresh c → (c = '@' → opensHereString r = false) →
      (c = '<' → r.head? ≠ some (.char '#')) → Lexeme fresh (.plain c) [c] r

theorem Lexeme.ne_nil {fresh : Bool} {item : Item} {s r : Text} (h : Lexeme fresh item s r) :
    s ≠ [] := by
  cases h <;> simp

/-! ### What follows a lexeme -/

/-- A text in which no here-string opens keeps that when more stands behind it. -/
theorem opensHereString_append {r : Text} (v : Text) (hr : r ≠ []) (h : opensHereString r = false) :
    opensHereString (r ++ v) = false := by
  cases r with
  | nil => exact absurd rfl hr
  | cons q r =>
    simp only [opensHereString, List.cons_append, Bool.and_eq_false_iff] at h ⊢
    refine h.imp id fun hb => ?_
    simp only [Text.isBlank, List.all_eq_false] at hb ⊢
    obtain ⟨x, hx, hs⟩ := hb
    refine ⟨x, ?_, hs⟩
    rw [List.takeWhile_append]
    split
    · exact List.mem_append_left _ (List.takeWhile_subset _ hx)
    · exact hx

/-- More text behind what follows changes nothing. -/
theorem Lexeme.append {fresh : Bool} {item : Item} {s r : Text} (h : Lexeme fresh item s r)
    (v : Text) (hr : r ≠ []) : Lexeme fresh item s (r ++ v) := by
  obtain ⟨d, r, rfl⟩ := List.exists_cons_of_ne_nil hr
  cases h with
  | quoted hq hs hn => exact .quoted hq hs hn
  | here hq hs hb => exact .here hq hs hb
  | block hs => exact .block hs
  | line hf hs hn => exact .line hf hs (.inr (by simpa using hn))
  | escape => exact .escape
  | opening => exact .opening
  | closing => exact .closing
  | plain hc ha hl => exact .plain hc (fun e => opensHereString_append v hr (ha e)) hl

/-- If a quote stands at the front, something other than white space stands behind it. -/
def ClosesQuote (r : Text) : Prop :=
  ∀ q s, r = q :: s → isQuote q = true → ∃ d ∈ s, isSpace d = false

theorem opensHereString_of_append {r v : Text} (hr : r ≠ []) (hc : ClosesQuote r)
    (h : opensHereString (r ++ v) = false) : opensHereString r = false := by
  cases r with
  | nil => exact absurd rfl hr
  | cons q r =>
    cases hq : isQuote q with
    | false => simp [opensHereString, hq]
    | true =>
      simp only [opensHereString, List.cons_append, hq, Bool.true_and] at h ⊢
      obtain ⟨d, hd, hs⟩ := hc q r rfl hq
      -- without a newline in `r`, the first line of `r` is all of it and `d` stands there
      rw [List.takeWhile_append] at h
      split at h
      · rename_i hl
        have hall : r.takeWhile (· ≠ .char '\n') = r :=
          (List.takeWhile_prefix _).eq_of_length hl
        rw [hall]
        simp only [Text.isBlank, List.all_eq_false]
        exact ⟨d, hd, by simp [hs]⟩
      · exact h

/-- What stands behind the closing part of what follows does not matter. -/
theorem Lexeme.restrict {fresh : Bool} {item : Item} {s r v : Text}
    (h : Lexeme fresh item s (r ++ v)) (hr : r ≠ []) (hc : ClosesQuote r) :
    Lexeme fresh item s r := by
  obtain ⟨d, t, rfl⟩ := List.exists_cons_of_ne_nil hr
  generalize hw : d :: t ++ v = w at h
  cases h with
  | quoted hq hs hn => exact .quoted hq hs (by subst hw; simpa using hn)
  | here hq hs hb => exact .here hq hs hb
  | block hs => exact .block hs
  | line hf hs hn => exact .line hf hs (by subst hw; simpa using hn)
  | escape => exact .escape
  | lone => cases hw
  | opening => exact .opening
  | closing => exact .closing
  | plain hp ha hl =>
    subst hw
    exact .plain hp (fun e => opensHereString_of_append hr hc (ha e)) (by simpa using hl)

/-- A text that extends no lexeme in front of it: it starts with neither a quote nor a `#`. -/
def Inert (r : Text) : Prop := ∀ c ∈ r.head?, isQuote c = false ∧ c ≠ '#'

theorem Inert.opensHereString {r : Text} (h : Inert r) : opensHereString r = false := by
  cases r with
  | nil => rfl
  | cons c r => simp [CondParam.opensHereString, (h c rfl).1]

/-- A lexeme at the end of a text that is neither a comment nor an unfinished escape can be followed
by whatever extends no lexeme. -/
theorem Lexeme.before {fresh : Bool} {item : Item} {s r : Text} (h : Lexeme fresh item s [])
    (hi : item ≠ .comment) (he : item ≠ .escape none) (hr : Inert r) : Lexeme fresh item s r := by
  generalize hw : ([] : Text) = w at h
  cases h with
  | quoted hq hs hn =>
    refine .quoted hq hs fun e => ?_
    rw [(hr _ e).1] at hq
    cases hq
  | here hq hs hb => exact .here hq hs hb
  | block _ => exact absurd rfl hi
  | line _ _ _ => exact absurd rfl hi
  | escape => exact .escape
  | lone => exact absurd rfl he
  | opening => exact .opening
  | closing => exact .closing
  | plain hp _ _ => exact .plain hp (fun _ => hr.opensHereString) (fun _ e => (hr _ e).2 rfl)

/-! ## The item at the front of a text -/

theorem stringTail?_eq_none {c : CodePoint} {cs : Text} (hq : isQuote c = false)
    (ha : c = '@' → opensHereString cs = false) : stringTail? c cs = none := by
  have h : ¬ (c = '@' && opensHereString cs) = true := by
    simpa using fun e => ha e
  rw [stringTail?, hq, if_neg Bool.false_ne_true, if_neg h]

theorem commentTail?_eq_none {fresh : Bool} {c : CodePoint} {cs : Text}
    (hl : c = '<' → cs.head? ≠ some (.char '#')) (hc : fresh = true → c ≠ '#') :
    commentTail? fresh c cs = none := by
  have h₁ : ¬ (c = '<' ∧ cs.head? = some (.char '#')) := fun h => hl h.1 h.2
  have h₂ : ¬ (fresh = true ∧ c = '#') := fun h => hc h.1 h.2
  rw [commentTail?, if_neg h₁, if_neg h₂]

/-- A character that opens neither a string nor a comment. -/
theorem tails_eq_none {c : CodePoint} (fresh : Bool) (cs : Text) (hq : isQuote c = false)
    (hc : c ∉ ([.char '@', .char '<', .char '#'] : Text)) :
    stringTail? c cs = none ∧ commentTail? fresh c cs = none := by
  simp only [List.mem_cons, List.not_mem_nil, or_false, not_or] at hc
  exact ⟨stringTail?_eq_none hq fun e => absurd e hc.1,
    commentTail?_eq_none (fun e => absurd e hc.2.1) fun _ => hc.2.2⟩

theorem takeWhile_append_cons {p : CodePoint → Bool} {c : CodePoint} (hc : p c = false)
    (s r : Text) : (s ++ c :: r).takeWhile p = s.takeWhile p := by
  induction s with
  | nil => simp [hc]
  | cons d s ih => by_cases hd : p d = true <;> simp [hd, ih]

/-- What stands behind the first character of another kind does not matter. -/
theorem takeWhile_append_of_mem {p : CodePoint → Bool} {c : CodePoint} {s : Text} (r : Text)
    (hc : c ∈ s) (hp : p c = false) : (s ++ r).takeWhile p = s.takeWhile p := by
  obtain ⟨a, b, rfl⟩ := List.append_of_mem hc
  rw [List.append_assoc, List.cons_append, takeWhile_append_cons hp, takeWhile_append_cons hp]

theorem takeWhile_line {s r : Text} (hs : .char '\n' ∉ s)
    (hr : r = [] ∨ r.head? = some (.char '\n')) :
    (s ++ r).takeWhile (· ≠ .char '\n') = s := by
  have hp : ∀ c ∈ s, decide (c ≠ CodePoint.char '\n') = true := fun c hc =>
    decide_eq_true fun e => hs (e ▸ hc)
  rw [List.takeWhile_append_of_pos hp]
  obtain rfl | hr := hr
  · simp
  · cases r with
    | nil => simp
    | cons d r => simp_all

theorem commentTail?_block {fresh : Bool} {s r : Text} (h : UpTo ['#', '>'] s) :
    commentTail? fresh '<' ('#' :: (s ++ r)) = some (.ok (s.length + 1)) := by
  rw [commentTail?, if_pos ⟨rfl, rfl⟩, List.drop_one, List.tail_cons, h.through]

theorem commentTail?_line {fresh : Bool} {s r : Text} (hf : fresh = true) (hs : .char '\n' ∉ s)
    (hr : r = [] ∨ r.head? = some (.char '\n')) :
    commentTail? fresh '#' (s ++ r) = some (.ok s.length) := by
  rw [commentTail?, if_neg (fun e => absurd e.1 (by decide)), if_pos ⟨hf, rfl⟩,
    takeWhile_line hs hr]

/-- **The item of a lexeme at the front of a text** is found there. -/
theorem Lexeme.next {fresh : Bool} {item : Item} {c : CodePoint} {s r : Text}
    (h : Lexeme fresh item (c :: s) r) : Item.next fresh c (s ++ r) = .ok (item, s.length) := by
  generalize hw : c :: s = w at h
  cases h with
  | quoted hq hs hn =>
    cases hw
    simp [Item.next, stringTail?, hq, hs.quotedTail hn]
  | @here q t _ hq ht hb =>
    cases hw
    have hm : .char '\n' ∈ t := ht.suffix.subset (.head _)
    have ho : opensHereString (q :: (t ++ r)) = true := by
      rw [opensHereString, takeWhile_append_of_mem r hm (by decide), hq, hb, Bool.and_self]
    simp [Item.next, stringTail?, ho, hereStringTail, ht.through r,
      show isQuote '@' = false from rfl]
  | @block t _ ht =>
    cases hw
    have h₁ : stringTail? '<' ('#' :: (t ++ r)) = none :=
      stringTail?_eq_none rfl fun e => absurd e (by decide)
    simp [Item.next, h₁, commentTail?_block ht]
  | line hf hs hn =>
    cases hw
    have h₁ : stringTail? '#' (s ++ r) = none :=
      stringTail?_eq_none rfl fun e => absurd e (by decide)
    simp [Item.next, h₁, commentTail?_line hf hs hn]
  | @escape c =>
    cases hw
    obtain ⟨h₁, h₂⟩ := tails_eq_none fresh (c :: r) (c := backtick) rfl (by decide)
    simp [Item.next, h₁, h₂]
  | lone =>
    cases hw
    obtain ⟨h₁, h₂⟩ := tails_eq_none fresh [] (c := backtick) rfl (by decide)
    simp [Item.next, h₁, h₂]
  | @opening b =>
    cases hw
    obtain ⟨h₁, h₂⟩ := tails_eq_none fresh r (c := b.opening) (by cases b <;> rfl)
      (by cases b <;> decide)
    have hb : b.opening ≠ backtick := by cases b <;> decide
    simp [Item.next, h₁, h₂, hb]
  | @closing b =>
    cases hw
    obtain ⟨h₁, h₂⟩ := tails_eq_none fresh r (c := b.closing) (by cases b <;> rfl)
      (by cases b <;> decide)
    have hb : b.closing ≠ backtick := by cases b <;> decide
    have ho : Bracket.ofOpening? b.closing = none := by cases b <;> rfl
    simp [Item.next, h₁, h₂, hb, ho]
  | plain hp ha hl =>
    cases hw
    simp [Item.next, stringTail?_eq_none hp.notQuote ha, commentTail?_eq_none hl hp.notComment,
      hp.notEscape, hp.notOpening, hp.notClosing]

theorem stringTail?_ok {c : CodePoint} {cs : Text} {n : Nat} (fresh : Bool)
    (h : stringTail? c cs = some (.ok n)) :
    ∃ s r, cs = s ++ r ∧ s.length = n ∧ Lexeme fresh .string (c :: s) r := by
  unfold stringTail? at h
  split at h
  · rename_i hq
    split at h
    · rename_i k hk
      cases h
      obtain ⟨s, r, rfl, rfl, hs, hr⟩ := quotedTail_some hk
      exact ⟨s, r, rfl, rfl, .quoted hq hs hr⟩
    · cases h
  · split at h
    · rename_i hq ha
      obtain ⟨rfl, ho⟩ : c = '@' ∧ opensHereString cs = true := by simpa using ha
      split at h
      · rename_i k hk
        cases h
        cases cs with
        | nil => cases hk
        | cons q cs =>
          simp only [hereStringTail, Option.map_eq_some_iff] at hk
          obtain ⟨j, hj, rfl⟩ := hk
          obtain ⟨s, r, rfl, rfl, hs⟩ := through_some hj
          have hm : .char '\n' ∈ s := hs.suffix.subset (.head _)
          rw [opensHereString, takeWhile_append_of_mem r hm (by decide), Bool.and_eq_true] at ho
          exact ⟨q :: s, r, rfl, rfl, .here ho.1 hs ho.2⟩
      · cases h
    · cases h

theorem commentTail?_ok {fresh : Bool} {c : CodePoint} {cs : Text} {n : Nat}
    (h : commentTail? fresh c cs = some (.ok n)) :
    ∃ s r, cs = s ++ r ∧ s.length = n ∧ Lexeme fresh .comment (c :: s) r := by
  unfold commentTail? at h
  split at h
  · rename_i hc
    obtain ⟨rfl, hd⟩ := hc
    split at h
    · rename_i k hk
      cases h
      cases cs with
      | nil => cases hd
      | cons d cs =>
        cases hd
        obtain ⟨s, r, hsr, rfl, hs⟩ := through_some hk
        obtain rfl : cs = s ++ r := hsr
        exact ⟨'#' :: s, r, rfl, rfl, .block hs⟩
    · cases h
  · split at h
    · rename_i hc
      obtain ⟨hf, rfl⟩ := hc
      cases h
      refine ⟨_, cs.dropWhile (· ≠ .char '\n'), List.takeWhile_append_dropWhile.symm, rfl,
        .line hf (fun hm => by simpa using List.mem_takeWhile_imp hm) ?_⟩
      cases hd : cs.dropWhile (· ≠ .char '\n') with
      | nil => exact .inl rfl
      | cons d r =>
        have := List.head?_dropWhile_not (· ≠ .char '\n') cs
        rw [hd] at this
        exact .inr (by simpa using this)
    · cases h

theorem stringTail?_none {c : CodePoint} {cs : Text} (h : stringTail? c cs = none) :
    isQuote c = false ∧ (c = '@' → opensHereString cs = false) := by
  unfold stringTail? at h
  split at h
  · split at h <;> cases h
  · rename_i hq
    split at h
    · split at h <;> cases h
    · rename_i ha
      exact ⟨by simpa using hq, by simpa using ha⟩

theorem commentTail?_none {fresh : Bool} {c : CodePoint} {cs : Text}
    (h : commentTail? fresh c cs = none) :
    (c = '<' → cs.head? ≠ some (.char '#')) ∧ (fresh = true → c ≠ '#') := by
  unfold commentTail? at h
  split at h
  · split at h <;> cases h
  · rename_i hl
    split at h
    · cases h
    · rename_i hc
      exact ⟨fun h₁ h₂ => hl ⟨h₁, h₂⟩, fun h₁ h₂ => hc ⟨h₁, h₂⟩⟩

/-- **The item found at the front of a text** has its lexeme there. -/
theorem Item.next_ok {fresh : Bool} {c : CodePoint} {cs : Text} {item : Item} {n : Nat}
    (h : Item.next fresh c cs = .ok (item, n)) :
    ∃ s r, cs = s ++ r ∧ s.length = n ∧ Lexeme fresh item (c :: s) r := by
  unfold Item.next at h
  split at h
  · rename_i k hs
    cases h
    exact stringTail?_ok fresh hs
  · cases h
  · rename_i hs
    split at h
    · rename_i k hc
      cases h
      exact commentTail?_ok hc
    · cases h
    · rename_i hc
      split at h
      · rename_i hb
        subst hb
        cases h
        cases cs with
        | nil => exact ⟨[], [], rfl, rfl, .lone⟩
        | cons d cs => exact ⟨[d], cs, rfl, rfl, .escape⟩
      · rename_i hb
        split at h
        · rename_i b ho
          cases h
          cases Bracket.eq_opening_of_ofOpening? ho
          exact ⟨[], cs, rfl, rfl, .opening⟩
        · rename_i b ho hcl
          cases h
          cases Bracket.eq_closing_of_ofClosing? hcl
          exact ⟨[], cs, rfl, rfl, .closing⟩
        · rename_i ho hcl
          cases h
          obtain ⟨hq, ha⟩ := stringTail?_none hs
          obtain ⟨hl, hf⟩ := commentTail?_none hc
          exact ⟨[], cs, rfl, rfl, .plain ⟨hq, hb, ho, hcl, hf⟩ ha hl⟩

/-! ## Ordinary characters -/

/-- The characters that are or open something other than themselves. -/
def lexicalMarks : Text := "\x27\x22\x60([\x7b)]\x7d#@<"

theorem notMem_lexicalMarks {p : CodePoint → Bool} {c : CodePoint}
    (hp : ∀ d ∈ lexicalMarks, p d = false) (h : p c = true) : c ∉ lexicalMarks := by
  intro hc
  rw [hp c hc] at h
  cases h

theorem notMem_lexicalMarks_of_isSpace {c : CodePoint} (h : isSpace c = true) :
    c ∉ lexicalMarks :=
  notMem_lexicalMarks (p := isSpace) (by decide) h

theorem notMem_lexicalMarks_of_isNameChar {c : CodePoint} (h : isNameChar c = true) :
    c ∉ lexicalMarks :=
  notMem_lexicalMarks (p := isNameChar) (by decide) h

/-- An ordinary character is an item of its own, wherever it stands. -/
theorem Lexeme.ordinary {fresh : Bool} {c : CodePoint} {r : Text} (h : c ∉ lexicalMarks) :
    Lexeme fresh (.plain c) [c] r := by
  have hne : ∀ d ∈ lexicalMarks, c ≠ d := fun d hd e => h (e ▸ hd)
  refine .plain ⟨?_, hne _ (by decide), ?_, ?_, fun _ => hne _ (by decide)⟩
    (fun e => absurd e (hne _ (by decide))) (fun e => absurd e (hne _ (by decide)))
  · have h₁ := hne '\x27' (by decide)
    have h₂ := hne '\x22' (by decide)
    simp [isQuote, h₁, h₂]
  · cases ho : Bracket.ofOpening? c with
    | none => rfl
    | some b =>
      refine absurd (Bracket.eq_opening_of_ofOpening? ho) (hne _ ?_)
      cases b <;> decide
  · cases hc : Bracket.ofClosing? c with
    | none => rfl
    | some b =>
      refine absurd (Bracket.eq_closing_of_ofClosing? hc) (hne _ ?_)
      cases b <;> decide

theorem Item.next_ordinary {fresh : Bool} {c : CodePoint} (hc : c ∉ lexicalMarks) (r : Text) :
    Item.next fresh c r = .ok (.plain c, 0) :=
  (Lexeme.ordinary hc : Lexeme fresh (.plain c) [c] r).next

/-! ## Marks behind a lexeme -/

/-- Whether a here-string opens is settled before a character that is no white space. -/
theorem opensHereString_exchange {c c' : CodePoint} {u r : Text} (hq' : isQuote c' = false)
    (hs' : isSpace c' = false) (r' : Text) (h : opensHereString (u ++ c :: r) = false) :
    opensHereString (u ++ c' :: r') = false := by
  cases u with
  | nil => simp [opensHereString, hq']
  | cons q u =>
    simp only [opensHereString, List.cons_append, Bool.and_eq_false_iff] at h ⊢
    refine h.imp id fun hb => ?_
    simp only [Text.isBlank, List.all_eq_false] at hb ⊢
    by_cases hn : .char '\n' ∈ u
    · rwa [takeWhile_append_of_mem _ hn (by decide)] at hb ⊢
    · have hp : ∀ d ∈ u ++ [c'], decide (d ≠ CodePoint.char '\n') = true := by
        intro d hd
        refine decide_eq_true ?_
        rintro rfl
        rcases List.mem_append.1 hd with hd | hd
        · exact hn hd
        · cases List.mem_singleton.1 hd
          cases hs'
      refine ⟨c', ?_, by simp [hs']⟩
      rw [List.append_cons, List.takeWhile_append_of_pos hp]
      simp

/-- A lexeme is the same when one mark behind it takes the place of another. -/
theorem Lexeme.exchange {fresh : Bool} {item : Item} {c c' : CodePoint} {s u r : Text}
    (h : Lexeme fresh item s (u ++ c :: r)) (hc : isSpace c = false) (hs' : isSpace c' = false)
    (hi : Inert [c']) (r' : Text) : Lexeme fresh item s (u ++ c' :: r') := by
  obtain ⟨hq', hh'⟩ := hi c' rfl
  generalize hw : u ++ c :: r = w at h
  cases h with
  | quoted hq hs hn =>
    subst hw
    refine .quoted hq hs ?_
    cases u with
    | nil => rintro ⟨⟩; rw [hq'] at hq; cases hq
    | cons d u => exact hn
  | here hq hs hb => exact .here hq hs hb
  | block hs => exact .block hs
  | line hf hs hn =>
    subst hw
    refine .line hf hs (.inr ?_)
    cases u with
    | nil =>
      rcases hn with hn | hn
      · cases hn
      · cases hn
        cases hc
    | cons d u => exact hn.resolve_left (by simp)
  | escape => exact .escape
  | lone => simp at hw
  | opening => exact .opening
  | closing => exact .closing
  | plain hp ha hl =>
    subst hw
    refine .plain hp (fun e => opensHereString_exchange hq' hs' r' (ha e)) fun e => ?_
    cases u with
    | nil => simpa using hh'
    | cons d u => exact hl e

end CondParam
