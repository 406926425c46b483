import CondParam.Proofs.Failure

/-!
# Balanced groups

`Balanced b s`: `s` is a bracket, items one after another, and the bracket that closes it. Which
items there are depends on `s` alone: a `#` opens a comment behind the characters that end a token,
and how far a string or a comment reaches is seen from what follows it in `s`. The group that opens
at a place of a text ends where a balanced text ends, and nowhere if there is none
(`groupEnd_balanced`).

The scanner does not look back; it carries along whether a token can start. That comes to the same
(`balancedRest_iff`): only behind a line comment the two differ, and there a newline follows.
-/

set_option autoImplicit false

namespace CondParam

/-- Whether a token can start behind `before`: where a text starts, and behind the characters after
which one can. -/
def tokenStartsAfter (before : Text) : Bool := before.getLast?.all Item.endsToken

/-- The rest of a group of brackets `b` behind `before`, its closing bracket included. -/
inductive BalancedRest : Bracket → Text → Text → Prop
  | close {b : Bracket} {before : Text} : BalancedRest b before [b.closing]
  | item {b : Bracket} {item : Item} {before s r : Text} :
      Lexeme (tokenStartsAfter before) item s r → item.isBracket = false →
      BalancedRest b (before ++ s) r → BalancedRest b before (s ++ r)
  | group {b b' : Bracket} {before g r : Text} :
      BalancedRest b' (before ++ [b'.opening]) g → BalancedRest b (before ++ b'.opening :: g) r →
      BalancedRest b before (b'.opening :: (g ++ r))

/-- A bracket, items, and the bracket that closes it. -/
def Balanced (b : Bracket) (s : Text) : Prop :=
  ∃ g, s = b.opening :: g ∧ BalancedRest b [b.opening] g

/-! ## Looking back -/

theorem tokenStartsAfter_append {s : Text} (before : Text) (hs : s ≠ []) :
    tokenStartsAfter (before ++ s) = tokenStartsAfter s := by
  unfold tokenStartsAfter
  rw [List.getLast?_append_of_ne_nil _ hs]

theorem tokenStartsAfter_of_suffix {c : CodePoint} {s : Text} (h : [c] <:+ s) :
    tokenStartsAfter s = Item.endsToken c := by
  obtain ⟨s, rfl⟩ := h
  rw [tokenStartsAfter_append s (by simp)]
  rfl

theorem QuotedRest.suffix {q : CodePoint} {s : Text} (h : QuotedRest q s) : [q] <:+ s := by
  induction h with
  | close => exact List.suffix_rfl
  | escape _ _ ih => exact ih.trans ((List.suffix_cons _ _).trans (List.suffix_cons _ _))
  | double _ ih => exact ih.trans ((List.suffix_cons _ _).trans (List.suffix_cons _ _))
  | other _ _ _ ih => exact ih.trans (List.suffix_cons _ _)

theorem endsToken_of_isQuote {q : CodePoint} (h : isQuote q = true) : Item.endsToken q = false := by
  simp only [isQuote, Bool.or_eq_true, beq_iff_eq] at h
  rcases h with rfl | rfl <;> decide

theorem Lexeme.string_suffix {fresh : Bool} {s r : Text} (h : Lexeme fresh .string s r) :
    ∃ d, [d] <:+ s ∧ (isQuote d = true ∨ d = '@') := by
  cases h with
  | @quoted q s r hq hs _ => exact ⟨q, hs.suffix.trans (List.suffix_cons q s), .inl hq⟩
  | @here q s r _ hs _ =>
    have hm : [.char '@'] <:+ [.char '\n', q, .char '@'] := ⟨[.char '\n', q], rfl⟩
    exact ⟨'@', ((hm.trans hs.suffix).trans (List.suffix_cons _ _)).trans (List.suffix_cons _ _),
      .inr rfl⟩

theorem Lexeme.comment_suffix {fresh : Bool} {s r : Text} (h : Lexeme fresh .comment s r) :
    [.char '>'] <:+ s ∨ r = [] ∨ r.head? = some (.char '\n') := by
  cases h with
  | block hs =>
    have hm : [CodePoint.char '>'] <:+ [.char '#', .char '>'] := ⟨[.char '#'], rfl⟩
    exact .inl (((hm.trans hs.suffix).trans (List.suffix_cons _ _)).trans (List.suffix_cons _ _))
  | line _ _ hn => exact .inr hn

/-- The last character of an item tells whether a token can start behind it, unless a line ends
there. -/
theorem Lexeme.tokenStartsAfter {fresh : Bool} {item : Item} {s r : Text}
    (h : Lexeme fresh item s r) (hr : r ≠ []) (hb : item.isBracket = false) :
    tokenStartsAfter s = item.startsToken ∨ r.head? = some (.char '\n') := by
  cases item with
  | string =>
    obtain ⟨d, hd, hq⟩ := h.string_suffix
    refine .inl ((tokenStartsAfter_of_suffix hd).trans ?_)
    rcases hq with hq | rfl
    · exact endsToken_of_isQuote hq
    · rfl
  | comment =>
    rcases h.comment_suffix with hs | hn
    · exact .inl (tokenStartsAfter_of_suffix hs)
    · exact .inr (hn.resolve_left hr)
  | escape d =>
    cases h with
    | escape => exact .inl rfl
    | lone => exact absurd rfl hr
  | opening b | closing b => cases hb
  | plain c =>
    cases h
    exact .inl rfl

/-- At a newline it makes no difference whether a token can start. -/
theorem GroupRest.of_newline {b : Bracket} {fresh : Bool} {s : Text} (h : GroupRest b fresh s)
    (hs : s.head? = some (.char '\n')) (fresh' : Bool) : GroupRest b fresh' s := by
  have hc : CodePoint.char '\n' ∉ lexicalMarks := by decide
  cases h with
  | close => cases b <;> cases hs
  | @item b fresh item s r hl hi hr =>
    obtain ⟨c, s, rfl⟩ := List.exists_cons_of_ne_nil hl.ne_nil
    obtain rfl : c = .char '\n' := Option.some.inj hs
    have hn := hl.next.symm.trans (Item.next_ordinary hc (s ++ r))
    obtain ⟨rfl, hlen⟩ := Prod.mk.inj (Except.ok.inj hn)
    obtain rfl := List.length_eq_zero_iff.1 hlen
    exact .item (s := [.char '\n']) (.ordinary hc) rfl hr
  | @group b b' fresh g r _ _ => cases b' <;> cases hs

/-- What follows an item is the rest of a group in either reading. -/
theorem Lexeme.groupRest_behind {b : Bracket} {fresh : Bool} {item : Item} {s r : Text}
    (h : Lexeme fresh item s r) (hi : item.isBracket = false) (before : Text) :
    GroupRest b (CondParam.tokenStartsAfter (before ++ s)) r ↔ GroupRest b item.startsToken r := by
  rw [tokenStartsAfter_append before h.ne_nil]
  constructor
  · intro hr
    rcases h.tokenStartsAfter hr.ne_nil hi with he | hn
    · exact he ▸ hr
    · exact hr.of_newline hn _
  · intro hr
    rcases h.tokenStartsAfter hr.ne_nil hi with he | hn
    · exact he ▸ hr
    · exact hr.of_newline hn _

theorem Bracket.tokenStartsAfter_opening (b : Bracket) (before : Text) :
    tokenStartsAfter (before ++ [b.opening]) = true := by
  rw [tokenStartsAfter_append before (by simp)]
  cases b <;> rfl

theorem GroupRest.tokenStartsAfter {b : Bracket} {g : Text} (h : GroupRest b true g)
    (before : Text) : tokenStartsAfter (before ++ b.opening :: g) = false := by
  rw [tokenStartsAfter_append before (by simp),
    tokenStartsAfter_of_suffix (h.closing_suffix.trans (List.suffix_cons _ _))]
  cases b <;> decide

/-- **Looking back at the character before an item** tells what the scanner carries along. -/
theorem balancedRest_iff {b : Bracket} {before s : Text} :
    BalancedRest b before s ↔ GroupRest b (tokenStartsAfter before) s := by
  constructor
  · intro h
    induction h with
    | close => exact .close
    | item hs hi _ ih => exact .item hs hi ((hs.groupRest_behind hi _).1 ih)
    | group _ _ ihg ihr =>
      rw [Bracket.tokenStartsAfter_opening] at ihg
      rw [ihg.tokenStartsAfter] at ihr
      exact .group ihg ihr
  · intro h
    -- The flag behind a line comment is not that of its last character, so the induction is on the
    -- length of the text.
    induction hn : s.length using Nat.strongRecOn generalizing b before s with
    | ind n ih =>
      subst hn
      cases h with
      | close => exact .close
      | @item _ _ item s r hs hi hr =>
        have hl := List.length_pos_iff.2 hs.ne_nil
        refine .item hs hi (ih _ ?_ ((hs.groupRest_behind hi before).2 hr) rfl)
        rw [List.length_append]
        omega
      | @group _ b' _ g r hg hr =>
        have hl : (b'.opening :: (g ++ r)).length = g.length + r.length + 1 := by simp
        refine .group (ih _ (by omega) ?_ rfl) (ih _ (by omega) ?_ rfl)
        · rwa [Bracket.tokenStartsAfter_opening]
        · rwa [hg.tokenStartsAfter]

theorem balanced_iff {b : Bracket} {s : Text} :
    Balanced b s ↔ IsGroup b s := by
  have hb : tokenStartsAfter [b.opening] = true := b.tokenStartsAfter_opening []
  simp only [Balanced, IsGroup, balancedRest_iff, hb]

/-! ## Places -/

/-- The place behind the group that the bracket `b` opens at `start`. -/
def groupEnd (b : Bracket) (text : Text) (start : Nat) : Except Fault Nat :=
  (b.groupTail (text.drop (start + 1))).map (· + (start + 1))

section
variable {b : Bracket} {text : Text} {start : Nat}

theorem groupTail_eq_ok_iff {cs : Text} {n : Nat} :
    b.groupTail cs = .ok n ↔ n ≤ cs.length ∧ GroupRest b true (cs.take n) := by
  constructor
  · intro h
    obtain ⟨g, r, rfl, rfl, hg⟩ := groupTail_ok h
    rw [List.take_left, List.length_append]
    exact ⟨Nat.le_add_right _ _, hg⟩
  · rintro ⟨hl, hg⟩
    have h := hg.groupTail (cs.drop n)
    rwa [List.take_append_drop, List.length_take_of_le hl] at h

/-- The text from a bracket on. -/
theorem extract_of_opening (h : text[start]? = some b.opening) (n : Nat) :
    text.extract start (n + (start + 1)) = b.opening :: (text.drop (start + 1)).take n := by
  obtain ⟨hl, he⟩ := List.getElem?_eq_some_iff.1 h
  have hn : n + (start + 1) - start = n + 1 := by omega
  rw [List.extract_eq_take_drop, hn, List.drop_eq_getElem_cons hl, he, List.take_succ_cons]

/-- **A group ends where a balanced text does.** -/
theorem groupEnd_eq_ok_iff (h : text[start]? = some b.opening) {e : Nat} :
    groupEnd b text start = .ok e ↔ e ≤ text.length ∧ Balanced b (text.extract start e) := by
  have hl := (List.getElem?_eq_some_iff.1 h).1
  rw [balanced_iff]
  constructor
  · intro he
    obtain ⟨n, hn, rfl⟩ := of_map_eq_ok he
    obtain ⟨hle, hg⟩ := groupTail_eq_ok_iff.1 hn
    rw [List.length_drop] at hle
    exact ⟨by omega, _, extract_of_opening h n, hg⟩
  · rintro ⟨hle, g, he, hg⟩
    have hlt : start < e := by
      refine Nat.lt_of_not_le fun hes => ?_
      rw [List.extract_eq_take_drop, Nat.sub_eq_zero_of_le hes] at he
      cases he
    obtain ⟨n, rfl⟩ := Nat.exists_eq_add_of_le' hlt
    rw [extract_of_opening h] at he
    have hn : b.groupTail (text.drop (start + 1)) = .ok n := by
      refine groupTail_eq_ok_iff.2 ⟨?_, (List.cons.inj he).2 ▸ hg⟩
      rw [List.length_drop]
      omega
    rw [groupEnd, hn]
    rfl

/-- What stands before a group and behind it does not matter. -/
theorem Balanced.groupEnd {s : Text} (h : Balanced b s) (u v : Text) :
    groupEnd b (u ++ s ++ v) u.length = .ok (u.length + s.length) := by
  obtain ⟨g, rfl, hg⟩ := balanced_iff.1 h
  have hd : (u ++ b.opening :: g ++ v).drop (u.length + 1) = g ++ v := by
    rw [List.append_assoc, ← List.drop_drop, List.drop_left]
    rfl
  rw [CondParam.groupEnd, hd, hg.groupTail]
  simp only [Except.map, List.length_cons]
  congr 1
  omega

theorem groupEnd_fault {f : Fault} (h : text[start]? = some b.opening)
    (hf : groupEnd b text start = .error f) : f.left ≤ text.length - start := by
  have hl := (List.getElem?_eq_some_iff.1 h).1
  have hle := groupTail_fault (error_of_map hf)
  rw [List.length_drop] at hle
  omega

end

/-- **A group ends where a balanced text does**, and there is a fault, in the text from the bracket
on, if there is none. What stands around the group does not matter. -/
theorem groupEnd_balanced (text : Text) (start : Nat) (b : Bracket)
    (h : text[start]? = some b.opening) :
    (∀ e, groupEnd b text start = .ok e ↔ e ≤ text.length ∧ Balanced b (text.extract start e)) ∧
    ((∀ e ≤ text.length, ¬ Balanced b (text.extract start e)) ↔
      ∃ f, groupEnd b text start = .error f ∧ f.left ≤ text.length - start) ∧
    ∀ e, groupEnd b text start = .ok e → ∀ u v,
      groupEnd b (u ++ text.extract start e ++ v) u.length = .ok (u.length + (e - start)) := by
  refine ⟨fun e => groupEnd_eq_ok_iff h, ⟨fun hn => ?_, ?_⟩, fun e he u v => ?_⟩
  · cases hr : groupEnd b text start with
    | ok e =>
      obtain ⟨hl, hb⟩ := (groupEnd_eq_ok_iff h).1 hr
      exact absurd hb (hn e hl)
    | error f => exact ⟨f, rfl, groupEnd_fault h hr⟩
  · rintro ⟨f, hf, -⟩ e hl hb
    cases hf.symm.trans ((groupEnd_eq_ok_iff h).2 ⟨hl, hb⟩)
  · obtain ⟨hl, hb⟩ := (groupEnd_eq_ok_iff h).1 he
    rw [hb.groupEnd]
    rw [List.extract_eq_take_drop, List.length_take, List.length_drop]
    congr 1
    omega

/-- Brackets in strings and in comments, an escaped one and nested groups, moved from one place to
another; and a group without an end. -/
theorem groupEnd_balanced_nested :
    let text : Text := "'](a['('] \"`\")\" <#)#> #)\n`){[]})'"
    let g : Text := "(a['('] \"`\")\" <#)#> #)\n`){[]})"
    text[2]? = some Bracket.paren.opening ∧ groupEnd .paren text 2 = .ok 32 ∧ Balanced .paren g ∧
      groupEnd .paren ("#" ++ g ++ "\"") 1 = .ok 31 ∧
      groupEnd .paren "(<#)" 0 = .error ⟨.unterminatedComment, 3⟩ ∧
      ∀ e ≤ 4, ¬ Balanced .paren (("(<#)" : Text).extract 0 e) := by
  intro text g
  have ho : text[2]? = some Bracket.paren.opening := rfl
  have he : groupEnd .paren text 2 = .ok 32 := eq_ok_of_toOption (by decide +kernel)
  obtain ⟨hends, -, hmoved⟩ := groupEnd_balanced text 2 .paren ho
  obtain ⟨-, hnone, -⟩ := groupEnd_balanced "(<#)" 0 .paren rfl
  have hf : groupEnd .paren "(<#)" 0 = .error ⟨.unterminatedComment, 3⟩ := by decide +kernel
  exact ⟨ho, he, ((hends 32).1 he).2, hmoved 32 he "#" "\"", hf, hnone.2 ⟨_, hf, by decide⟩⟩

end CondParam
