import CondParam.Proofs.Trivia
import CondParam.Script.Expression

/-!
# The grammar of expressions

`ExpressionText fresh e`: `e` is an expression without the trivia at its end, lexemes and complete
groups with no comma and no closing bracket outside the groups. `expressionReach` stops behind
exactly these texts (`ExpressionText.expressionReach`, `expressionReach_ok`). The text of an
expression does not depend on what follows it, as long as that extends none of its lexemes.
`ExpressionRun` is how `expressionReach` goes over a text (`expressionReach_eq_ok_iff`).
-/

set_option autoImplicit false

namespace CondParam

/-- White space and comments. -/
def Item.isTrivia : Item → Bool
  | comment => true
  | plain c => isSpace c
  | _ => false

/-- An expression; its last part is no trivia. -/
inductive ExpressionText : Bool → Text → Prop
  | last {fresh : Bool} {item : Item} {s : Text} :
      Lexeme fresh item s [] → item.isBracket = false → item ≠ .plain ',' →
      item.isTrivia = false → item ≠ .escape none → ExpressionText fresh s
  | lastGroup {fresh : Bool} {b : Bracket} {g : Text} :
      GroupRest b true g → ExpressionText fresh (b.opening :: g)
  | item {fresh : Bool} {item : Item} {s e : Text} :
      Lexeme fresh item s e → item.isBracket = false → item ≠ .plain ',' →
      ExpressionText item.startsToken e → ExpressionText fresh (s ++ e)
  | group {fresh : Bool} {b : Bracket} {g e : Text} :
      GroupRest b true g → ExpressionText false e → ExpressionText fresh (b.opening :: (g ++ e))

theorem Bracket.isQuote_opening (b : Bracket) : isQuote b.opening = false := by
  cases b <;> decide

/-- A lexeme that starts with a quote has its closing quote. -/
theorem Lexeme.closesQuote {fresh : Bool} {item : Item} {s r : Text}
    (h : Lexeme fresh item s r) : ClosesQuote s := by
  rintro q t rfl hq
  generalize hw : q :: t = w at h
  cases h with
  | quoted _ hs _ =>
    cases hw
    refine ⟨q, hs.mem, ?_⟩
    simp only [isQuote, Bool.or_eq_true, beq_iff_eq] at hq
    rcases hq with rfl | rfl <;> decide
  | here _ _ _ => cases hw; cases hq
  | block _ => cases hw; cases hq
  | line _ _ _ => cases hw; cases hq
  | escape => cases hw; cases hq
  | lone => cases hw; cases hq
  | opening => cases hw; rw [Bracket.isQuote_opening] at hq; cases hq
  | @closing b => cases hw; cases b <;> cases hq
  | plain hp _ _ => cases hw; rw [hp.notQuote] at hq; cases hq

/-- Without what follows, a lexeme is the same. -/
theorem Lexeme.alone {fresh : Bool} {item : Item} {s r : Text} (h : Lexeme fresh item s r) :
    Lexeme fresh item s [] := by
  cases h with
  | quoted hq hs _ => exact .quoted hq hs (by simp)
  | here hq hs hb => exact .here hq hs hb
  | block hs => exact .block hs
  | line hf hs _ => exact .line hf hs (.inl rfl)
  | escape => exact .escape
  | lone => exact .lone
  | opening => exact .opening
  | closing => exact .closing
  | plain hp _ _ => exact .plain hp (fun _ => rfl) (fun _ => by simp)

theorem ClosesQuote.append {s : Text} (h : ClosesQuote s) (hs : s ≠ []) (r : Text) :
    ClosesQuote (s ++ r) := by
  obtain ⟨c, t, rfl⟩ := List.exists_cons_of_ne_nil hs
  intro q u hu hq
  obtain ⟨rfl, rfl⟩ := List.cons.inj hu
  obtain ⟨d, hd, hn⟩ := h c t rfl hq
  exact ⟨d, List.mem_append_left _ hd, hn⟩

namespace ExpressionText

theorem ne_nil {fresh : Bool} {e : Text} (h : ExpressionText fresh e) : e ≠ [] := by
  cases h with
  | last hs _ _ _ _ => exact hs.ne_nil
  | lastGroup _ => simp
  | item hs _ _ _ => exact List.append_ne_nil_of_left_ne_nil hs.ne_nil _
  | group _ _ => simp

theorem closesQuote {fresh : Bool} {e : Text} (h : ExpressionText fresh e) : ClosesQuote e := by
  cases h with
  | last hs _ _ _ _ => exact hs.closesQuote
  | lastGroup _ =>
    rintro q s ⟨⟩ hq
    rw [Bracket.isQuote_opening] at hq
    cases hq
  | item hs _ _ _ => exact hs.closesQuote.append hs.ne_nil _
  | group _ _ =>
    rintro q s ⟨⟩ hq
    rw [Bracket.isQuote_opening] at hq
    cases hq

end ExpressionText

/-! ## Where an expression stops -/

/-- What a part of an expression adds to its reach. -/
def Item.extend (item : Item) (n : Nat) : Reach → Reach :=
  if item.isTrivia then .afterTrivia n else .afterText n

theorem Lexeme.isSpace_head {fresh : Bool} {item : Item} {c : CodePoint} {s r : Text}
    (h : Lexeme fresh item (c :: s) r) (hi : item ≠ .comment) : isSpace c = item.isTrivia := by
  generalize hw : c :: s = w at h
  cases h with
  | quoted hq _ _ =>
    cases hw
    simp only [isQuote, Bool.or_eq_true, beq_iff_eq] at hq
    rcases hq with rfl | rfl <;> decide
  | block _ => exact absurd rfl hi
  | line _ _ _ => exact absurd rfl hi
  | @opening b => cases hw; cases b <;> decide
  | @closing b => cases hw; cases b <;> decide
  | _ => cases hw; rfl

theorem expressionReach_item {fresh : Bool} {item : Item} {s r : Text}
    (h : Lexeme fresh item s r) (hb : item.isBracket = false) (hc : item ≠ .plain ',') :
    expressionReach fresh (s ++ r) =
      (expressionReach item.startsToken r).map (item.extend s.length) := by
  obtain ⟨c, s, rfl⟩ := List.exists_cons_of_ne_nil h.ne_nil
  rw [List.cons_append, expressionReach, if_neg (h.head_ne hb hc), h.next]
  by_cases hi : item = .comment
  · subst hi
    simp [Item.startsToken, Item.extend, Item.isTrivia]
  · have hs := h.isSpace_head hi
    cases item with
    | comment => exact absurd rfl hi
    | opening b => cases hb
    | closing b => cases hb
    | _ => simp only [hs, List.drop_left, Item.extend, List.length_cons]; split <;> rfl

theorem expressionReach_group {fresh : Bool} {b : Bracket} {g : Text} (h : GroupRest b true g)
    (r : Text) : expressionReach fresh (b.opening :: (g ++ r)) =
      (expressionReach false r).map (.afterText (g.length + 1)) := by
  have hn : Lexeme fresh (.opening b) [b.opening] (g ++ r) := .opening
  have hc : ¬ (b.opening = ',' ∨ b.opening = ')') := by cases b <;> decide
  rw [expressionReach, if_neg hc, show Item.next fresh b.opening (g ++ r) = _ from hn.next]
  simp only [h.groupTail, List.drop_left]

/-- **An expression is read up to its end** before a text with no more of it. -/
theorem ExpressionText.expressionReach {fresh : Bool} {e r : Text} {k : Nat}
    (h : ExpressionText fresh e) (hr : Inert r)
    (hk : ∀ fresh, expressionReach fresh r = .ok ⟨0, k⟩) :
    expressionReach fresh (e ++ r) = .ok ⟨e.length, e.length + k⟩ := by
  induction h with
  | last hs hb hc ht he =>
    have hi : ∀ item : Item, item.isTrivia = false → item ≠ .comment := by rintro _ h rfl; cases h
    rw [expressionReach_item (hs.before (hi _ ht) he hr) hb hc, hk]
    simp [Except.map, Item.extend, ht, Reach.afterText, Nat.add_comm]
  | lastGroup hg =>
    rw [List.cons_append, expressionReach_group hg, hk]
    simp [Except.map, Reach.afterText, Nat.add_comm]
  | @item _ item s e hs hb hc he ih =>
    have hl : e.length ≠ 0 := fun h => he.ne_nil (List.length_eq_zero_iff.1 h)
    rw [List.append_assoc, expressionReach_item (hs.append r he.ne_nil) hb hc, ih]
    simp only [Except.map, Item.extend, List.length_append]
    split <;> simp only [Reach.afterTrivia, Reach.afterText, hl, if_false] <;> congr 2 <;> omega
  | group hg _ ih =>
    rw [List.cons_append, List.append_assoc, expressionReach_group hg, ih]
    simp only [Except.map, Reach.afterText, List.length_cons, List.length_append]
    congr 2 <;> omega

section
variable {w r : Text}

/-- Nothing of an expression stands in blanks before a comma or a closing parenthesis. -/
theorem expressionReach_blank (hw : w.isBlank = true)
    (hr : r.head? = some (.char ',') ∨ r.head? = some (.char ')')) (fresh : Bool) :
    expressionReach fresh (w ++ r) = .ok ⟨0, w.length⟩ := by
  induction w generalizing fresh with
  | nil =>
    cases r with
    | nil => simp at hr
    | cons c r =>
      have hc : c = ',' ∨ c = ')' := by simpa using hr
      rw [List.nil_append, expressionReach, if_pos hc]
      rfl
  | cons c w ih =>
    obtain ⟨hc, hw⟩ := Text.isBlank_cons.1 hw
    have hs : Lexeme fresh (.plain c) [c] (w ++ r) := .ordinary (notMem_lexicalMarks_of_isSpace hc)
    have hne : Item.plain c ≠ .plain ',' := by rintro ⟨⟩; cases hc
    have he := expressionReach_item hs rfl hne
    rw [ih hw] at he
    refine he.trans ?_
    simp [Except.map, Item.extend, Item.isTrivia, hc, Reach.afterTrivia]

theorem inert_blank (hw : w.isBlank = true)
    (hr : r.head? = some (.char ',') ∨ r.head? = some (.char ')')) : Inert (w ++ r) := by
  intro c hc
  cases w with
  | nil =>
    rw [List.nil_append] at hc
    rcases hr with hr | hr <;> rw [hr] at hc <;> cases hc <;> decide
  | cons d w =>
    cases hc
    have hs := (Text.isBlank_cons.1 hw).1
    refine ⟨?_, by rintro rfl; cases hs⟩
    rw [← Bool.not_eq_true]
    intro hq
    simp only [isQuote, Bool.or_eq_true, beq_iff_eq] at hq
    rcases hq with rfl | rfl <;> cases hs

end

/-- An expression does not end in a backtick that escapes nothing. -/
theorem ExpressionText.ne_backtick {fresh : Bool} : ¬ ExpressionText fresh [backtick] := by
  intro h
  generalize hw : [backtick] = w at h
  cases h with
  | last hs _ _ _ he =>
    subst hw
    have hn : Item.next fresh backtick [] = .ok (.escape none, 0) :=
      (Lexeme.lone : Lexeme fresh _ [backtick] []).next
    exact he (Prod.mk.inj (Except.ok.inj (hs.next.symm.trans hn))).1
  | @lastGroup _ b => cases b <;> cases hw
  | item hs _ _ he =>
    have h₁ := List.length_pos_iff.2 hs.ne_nil
    have h₂ := List.length_pos_iff.2 he.ne_nil
    have h₃ := congrArg List.length hw
    simp at h₃
    omega
  | @group _ b => cases b <;> cases hw

/-- No trivia stands in front of an expression that starts with none, whatever follows it. -/
theorem ExpressionText.triviaLength {fresh : Bool} {e r : Text} (h : ExpressionText fresh e)
    (h₀ : triviaLength e = .ok 0) (hr : Inert r) : triviaLength (e ++ r) = .ok 0 := by
  match e with
  | [] => exact absurd rfl h.ne_nil
  | [c] =>
    obtain ⟨hs, hc, -, -⟩ := triviaLength_cons_eq_zero.1 h₀
    refine triviaLength_cons_eq_zero.2 ⟨hs, hc, fun _ hh => (hr _ hh).2 rfl, fun e => ?_⟩
    subst e
    exact absurd h ne_backtick
  | c :: d :: e =>
    exact triviaLength_cons_eq_zero.2 (triviaLength_cons_eq_zero (r := d :: e).1 h₀)

/-! ## How an expression is read -/

/-- An expression is read over lexemes and complete groups, up to the first comma or closing
parenthesis, or to the end of the text. -/
inductive ExpressionRun : Bool → Text → Reach → Prop
  | done {fresh : Bool} : ExpressionRun fresh [] ⟨0, 0⟩
  | stop {fresh : Bool} {c : CodePoint} {cs : Text} :
      c = ',' ∨ c = ')' → ExpressionRun fresh (c :: cs) ⟨0, 0⟩
  | item {fresh : Bool} {item : Item} {s r : Text} {reach : Reach} :
      Lexeme fresh item s r → item.isBracket = false → item ≠ .plain ',' →
      ExpressionRun item.startsToken r reach →
      ExpressionRun fresh (s ++ r) (item.extend s.length reach)
  | group {fresh : Bool} {b : Bracket} {g r : Text} {reach : Reach} :
      GroupRest b true g → ExpressionRun false r reach →
      ExpressionRun fresh (b.opening :: (g ++ r)) (reach.afterText (g.length + 1))

theorem Lexeme.ne_comma {fresh : Bool} {item : Item} {c : CodePoint} {s r : Text}
    (h : Lexeme fresh item (c :: s) r) (hc : ¬ (c = ',' ∨ c = ')')) : item ≠ .plain ',' := by
  rintro rfl
  cases h
  exact hc (.inl rfl)

theorem Item.stop_extend (item : Item) (n : Nat) (reach : Reach) :
    (item.extend n reach).stop = reach.stop + n := by
  unfold Item.extend
  split <;> rfl

theorem expressionRun_of_ok {fresh : Bool} {t : Text} {reach : Reach}
    (h : expressionReach fresh t = .ok reach) : ExpressionRun fresh t reach := by
  fun_induction expressionReach fresh t generalizing reach with
  | case1 => cases h; exact .done
  | case2 fresh c cs hc => cases h; exact .stop hc
  | case3 | case5 | case7 => cases h
  | case4 fresh c cs hc n hn ih =>
    obtain ⟨m, hm, rfl⟩ := of_map_eq_ok h
    obtain ⟨s, v, rfl, rfl, hs⟩ := Item.next_ok hn
    rw [List.drop_left] at ih hm
    exact .item hs rfl (hs.ne_comma hc) (ih hm)
  | case6 fresh c cs hc b k hn n hg ih =>
    obtain ⟨m, hm, rfl⟩ := of_map_eq_ok h
    obtain ⟨s, v, rfl, rfl, hs⟩ := Item.next_ok hn
    cases hs
    obtain ⟨g, u, rfl, rfl, hr⟩ := groupTail_ok (show b.groupTail v = .ok n from hg)
    rw [List.nil_append, List.drop_left] at ih hm
    exact .group hr (ih hm)
  | case8 fresh c cs hc item n hi ho hcl hn _ hsp =>
    rename_i ih
    obtain ⟨m, hm, rfl⟩ := of_map_eq_ok h
    obtain ⟨s, v, rfl, rfl, hs⟩ := Item.next_ok hn
    replace hm : expressionReach item.startsToken ((s ++ v).drop s.length) = .ok m := hm
    rw [List.drop_left] at ih hm
    have hx : m.afterTrivia (s.length + 1) = item.extend (c :: s).length m := by
      rw [Item.extend, ← hs.isSpace_head hi, if_pos hsp, List.length_cons]
    rw [hx]
    exact .item hs (Item.isBracket_eq_false ho hcl) (hs.ne_comma hc) (ih hm)
  | case9 fresh c cs hc item n hi ho hcl hn _ hsp =>
    rename_i ih
    obtain ⟨m, hm, rfl⟩ := of_map_eq_ok h
    obtain ⟨s, v, rfl, rfl, hs⟩ := Item.next_ok hn
    replace hm : expressionReach item.startsToken ((s ++ v).drop s.length) = .ok m := hm
    rw [List.drop_left] at ih hm
    have hx : m.afterText (s.length + 1) = item.extend (c :: s).length m := by
      rw [Item.extend, ← hs.isSpace_head hi, if_neg hsp, List.length_cons]
    rw [hx]
    exact .item hs (Item.isBracket_eq_false ho hcl) (hs.ne_comma hc) (ih hm)

/-- **What `expressionReach` does.** -/
theorem expressionReach_eq_ok_iff {fresh : Bool} {t : Text} {reach : Reach} :
    expressionReach fresh t = .ok reach ↔ ExpressionRun fresh t reach := by
  refine ⟨expressionRun_of_ok, fun h => ?_⟩
  induction h with
  | done => rw [expressionReach]
  | stop hc => rw [expressionReach, if_pos hc]
  | item hs hb hc _ ih =>
    rw [expressionReach_item hs hb hc, ih]
    rfl
  | group hg _ ih =>
    rw [expressionReach_group hg, ih]
    rfl

/-! ## What was read -/

/-- An expression `e`, maybe empty, the trivia `w` behind it, and a text `r` at which it stops. -/
structure ExpressionStops (fresh : Bool) (e w r : Text) : Prop where
  text : e = [] ∨ ExpressionText fresh e
  trivia : Trivia false w
  stop : r.head? = some (.char ',') ∨ r.head? = some (.char ')')

namespace ExpressionStops

variable {fresh : Bool} {item : Item} {s e w r : Text}

theorem ne_nil (h : ExpressionStops fresh e w r) : r ≠ [] := by
  rintro rfl
  simpa using h.stop

theorem head_ne_newline (h : ExpressionStops fresh e w r) : r.head? ≠ some (.char '\n') := by
  intro hn
  have := h.stop
  rw [hn] at this
  revert this
  decide

/-- A lexeme in front of an expression belongs to it. -/
theorem extend (h : ExpressionStops item.startsToken e w r) (he : ExpressionText item.startsToken e)
    (hs : Lexeme fresh item s (e ++ (w ++ r))) (hb : item.isBracket = false)
    (hc : item ≠ .plain ',') : ExpressionStops fresh (s ++ e) w r :=
  ⟨.inr (.item (hs.restrict he.ne_nil he.closesQuote) hb hc he), h.trivia, h.stop⟩

/-- A lexeme that is no trivia in front of trivia is an expression. -/
theorem begin (h : ExpressionStops item.startsToken [] w r) (hs : Lexeme fresh item s (w ++ r))
    (hb : item.isBracket = false) (hc : item ≠ .plain ',') (ht : item.isTrivia = false) :
    ExpressionStops fresh s w r := by
  refine ⟨.inr (.last hs.alone hb hc ht fun hn => ?_), h.trivia, h.stop⟩
  -- an escape without a character ends the text
  subst hn
  generalize hv : w ++ r = v at hs
  cases hs
  exact h.ne_nil (List.append_eq_nil_iff.1 hv).2

/-- Trivia in front of trivia. -/
theorem skip (h : ExpressionStops item.startsToken [] w r) (hs : Lexeme fresh item s (w ++ r))
    (ht : item.isTrivia = true) : ExpressionStops fresh [] (s ++ w) r := by
  refine ⟨.inl rfl, ?_, h.stop⟩
  cases item with
  | comment => exact hs.trivia h.trivia h.ne_nil h.head_ne_newline
  | plain c =>
    generalize hv : w ++ r = v at hs
    cases hs
    exact .space ht h.trivia
  | _ => cases ht

/-- A group in front of an expression, or of trivia. -/
theorem group {b : Bracket} {g : Text} (h : ExpressionStops false e w r)
    (hg : GroupRest b true g) : ExpressionStops fresh (b.opening :: (g ++ e)) w r := by
  refine ⟨.inr ?_, h.trivia, h.stop⟩
  rcases h.text with rfl | he
  · rw [List.append_nil]
    exact .lastGroup hg
  · exact .group hg he

end ExpressionStops

/-- The text starts with an expression that reaches as far as `reach` says. -/
def Reached (fresh : Bool) (t : Text) (reach : Reach) : Prop :=
  ∃ e w r, t = e ++ (w ++ r) ∧ reach = ⟨e.length, e.length + w.length⟩ ∧
    ExpressionStops fresh e w r

theorem Reached.cons {fresh : Bool} {item : Item} {s t : Text} {reach : Reach}
    (h : Reached item.startsToken t reach) (hs : Lexeme fresh item s t)
    (hb : item.isBracket = false) (hc : item ≠ .plain ',') :
    Reached fresh (s ++ t) (item.extend s.length reach) := by
  obtain ⟨e, w, r, rfl, rfl, h⟩ := h
  rcases h.text with rfl | he
  · cases ht : item.isTrivia with
    | true =>
      exact ⟨[], s ++ w, r, by simp, by simp [Item.extend, ht, Reach.afterTrivia, Nat.add_comm],
        h.skip hs ht⟩
    | false =>
      exact ⟨s, w, r, rfl, by simp [Item.extend, ht, Reach.afterText, Nat.add_comm],
        h.begin hs hb hc ht⟩
  · refine ⟨s ++ e, w, r, by simp, ?_, h.extend he hs hb hc⟩
    have hl : e.length ≠ 0 := fun h => he.ne_nil (List.length_eq_zero_iff.1 h)
    simp only [Item.extend, List.length_append]
    split <;> simp only [Reach.afterTrivia, Reach.afterText, hl, if_false] <;> congr 1 <;> omega

theorem Reached.group {fresh : Bool} {b : Bracket} {g t : Text} {reach : Reach}
    (h : Reached false t reach) (hg : GroupRest b true g) :
    Reached fresh (b.opening :: (g ++ t)) (reach.afterText (g.length + 1)) := by
  obtain ⟨e, w, r, rfl, rfl, h⟩ := h
  refine ⟨b.opening :: (g ++ e), w, r, by simp, ?_, h.group hg⟩
  simp only [Reach.afterText, List.length_cons, List.length_append]
  congr 1 <;> omega

/-- **What was read is an expression** and the trivia behind it, if the text goes on. -/
theorem expressionReach_ok {fresh : Bool} {t : Text} {reach : Reach}
    (h : expressionReach fresh t = .ok reach) (hl : reach.stop < t.length) :
    Reached fresh t reach := by
  replace h := expressionReach_eq_ok_iff.1 h
  induction h with
  | done => cases hl
  | @stop _ c cs hc => exact ⟨[], [], c :: cs, rfl, rfl, .inl rfl, .nil, by simpa using hc⟩
  | item hs hb hc _ ih =>
    rw [Item.stop_extend, List.length_append] at hl
    exact (ih (by omega)).cons hs hb hc
  | group hg _ ih =>
    simp only [Reach.afterText, List.length_cons, List.length_append] at hl
    exact (ih (by omega)).group hg

end CondParam
