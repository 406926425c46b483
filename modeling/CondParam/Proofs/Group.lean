import CondParam.Proofs.Lexeme
import CondParam.Script.Group

/-!
# The grammar of bracketed groups

`GroupRest b fresh s`: `s` is what follows in a group of brackets `b`, up to and including its
closing bracket: lexemes, complete groups, and at last the bracket. `Bracket.groupTail` measures
exactly these texts (`GroupRest.groupTail`, `groupTail_ok`), whatever stands behind them.
-/

set_option autoImplicit false

namespace CondParam

def Item.isBracket : Item → Bool
  | opening _ => true
  | closing _ => true
  | _ => false

theorem Item.isBracket_eq_false {item : Item} (ho : ∀ b, item ≠ .opening b)
    (hc : ∀ b, item ≠ .closing b) : item.isBracket = false := by
  cases item with
  | opening b => exact absurd rfl (ho b)
  | closing b => exact absurd rfl (hc b)
  | _ => rfl

theorem Lexeme.head_ne {fresh : Bool} {item : Item} {c : CodePoint} {s r : Text}
    (h : Lexeme fresh item (c :: s) r) (hb : item.isBracket = false) (hc : item ≠ .plain ',') :
    ¬ (c = ',' ∨ c = ')') := by
  rintro (rfl | rfl)
  · have hn : Item.next fresh ',' (s ++ r) = .ok (.plain ',', 0) :=
      Item.next_ordinary (by decide) _
    exact hc (Prod.mk.inj (Except.ok.inj (h.next.symm.trans hn))).1
  · have hn : Item.next fresh ')' (s ++ r) = .ok (.closing .paren, 0) :=
      (Lexeme.closing : Lexeme fresh _ [Bracket.paren.closing] _).next
    rw [(Prod.mk.inj (Except.ok.inj (h.next.symm.trans hn))).1] at hb
    cases hb

/-- The rest of a group of brackets `b`, its closing bracket included. -/
inductive GroupRest : Bracket → Bool → Text → Prop
  | close {b : Bracket} {fresh : Bool} : GroupRest b fresh [b.closing]
  | item {b : Bracket} {fresh : Bool} {item : Item} {s r : Text} :
      Lexeme fresh item s r → item.isBracket = false → GroupRest b item.startsToken r →
      GroupRest b fresh (s ++ r)
  | group {b b' : Bracket} {fresh : Bool} {g r : Text} :
      GroupRest b' true g → GroupRest b false r → GroupRest b fresh (b'.opening :: (g ++ r))

/-- A whole group of brackets `b`. -/
def IsGroup (b : Bracket) (s : Text) : Prop := ∃ g, s = b.opening :: g ∧ GroupRest b true g

namespace GroupRest

theorem closing_suffix {b : Bracket} {fresh : Bool} {s : Text} (h : GroupRest b fresh s) :
    [b.closing] <:+ s := by
  induction h with
  | close => exact List.suffix_rfl
  | item _ _ _ ih => exact ih.trans (List.suffix_append _ _)
  | group _ _ _ ih =>
    exact (ih.trans (List.suffix_append _ _)).trans (List.suffix_cons _ _)

theorem ne_nil {b : Bracket} {fresh : Bool} {s : Text} (h : GroupRest b fresh s) : s ≠ [] := by
  rintro rfl
  simpa using h.closing_suffix

/-- The closing bracket stands behind a quote at the front. -/
theorem closesQuote {b : Bracket} {fresh : Bool} {s : Text} (h : GroupRest b fresh s) :
    ClosesQuote s := by
  rintro q s rfl hq
  have hm : b.closing ∈ q :: s := h.closing_suffix.subset (.head _)
  have hb : isQuote b.closing = false ∧ isSpace b.closing = false := by cases b <;> decide
  rcases List.mem_cons.1 hm with he | hm
  · rw [he, hq] at hb
    cases hb.1
  · exact ⟨_, hm, hb.2⟩

/-- Ordinary characters in front of the rest of a group belong to it. -/
theorem ordinary {b : Bracket} {s r : Text} (hs : ∀ c ∈ s, c ∉ lexicalMarks)
    (h : ∀ fresh, GroupRest b fresh r) : ∀ fresh, GroupRest b fresh (s ++ r) := by
  induction s with
  | nil => exact h
  | cons c s ih =>
    obtain ⟨hc, hs⟩ := List.forall_mem_cons.1 hs
    exact fun fresh => .item (s := [c]) (.ordinary hc) rfl (ih hs _)

end GroupRest

/-! ## Measuring a group -/

/-- The measuring goes on behind a closed group. -/
def resumeTail (u : Fault) (below : List Bracket) (t : Text) : Except Fault Nat :=
  match below with
  | [] => .ok 0
  | b :: below => closingTail u b below false t

section
variable {u : Fault} {top : Bracket} {below : List Bracket} {fresh : Bool}

theorem closingTail_item {item : Item} {s r : Text} (h : Lexeme fresh item s r)
    (hi : item.isBracket = false) :
    closingTail u top below fresh (s ++ r) =
      (closingTail u top below item.startsToken r).map (· + s.length) := by
  obtain ⟨c, s, rfl⟩ := List.exists_cons_of_ne_nil h.ne_nil
  rw [List.cons_append, closingTail, h.next]
  cases item with
  | opening b => cases hi
  | closing b => cases hi
  | _ => simp

theorem closingTail_opening {b : Bracket} {r : Text} :
    closingTail u top below fresh (b.opening :: r) =
      (closingTail u b (top :: below) true r).map (· + 1) := by
  have h : Lexeme fresh (.opening b) [b.opening] r := .opening
  rw [closingTail, show Item.next fresh b.opening r = _ from h.next]
  simp

theorem closingTail_closing {r : Text} :
    closingTail u top below fresh (top.closing :: r) = (resumeTail u below r).map (· + 1) := by
  have h : Lexeme fresh (.closing top) [top.closing] r := .closing
  rw [closingTail, show Item.next fresh top.closing r = _ from h.next]
  cases below <;> simp [resumeTail, Except.map]

end

theorem of_map_eq_ok {ε α β : Type} {f : α → β} {x : Except ε α} {b : β}
    (h : x.map f = .ok b) : ∃ a, x = .ok a ∧ f a = b := by
  cases x with
  | error e => cases h
  | ok a => exact ⟨a, rfl, by simpa [Except.map] using h⟩

theorem eq_ok_of_toOption {ε α : Type} {x : Except ε α} {a : α} (h : x.toOption = some a) :
    x = .ok a := by
  cases x with
  | error e => cases h
  | ok b => exact congrArg _ (Option.some.inj h)

theorem map_add_map_add {ε : Type} (x : Except ε Nat) (m n : Nat) :
    (x.map (· + m)).map (· + n) = x.map (· + (m + n)) := by
  cases x <;> simp [Except.map, Nat.add_assoc]

theorem map_add_congr {ε : Type} (x : Except ε Nat) {m n : Nat} (h : m = n) :
    x.map (· + m) = x.map (· + n) := by
  rw [h]

/-- The rest of a group is measured as a whole. -/
theorem GroupRest.closingTail {b : Bracket} {fresh : Bool} {g : Text} (h : GroupRest b fresh g)
    (u : Fault) (below : List Bracket) (r : Text) :
    closingTail u b below fresh (g ++ r) = (resumeTail u below r).map (· + g.length) := by
  induction h generalizing below r with
  | close => exact closingTail_closing
  | item hs hi hr ih =>
    rw [List.append_assoc, closingTail_item (hs.append r hr.ne_nil) hi, ih,
      map_add_map_add, List.length_append, Nat.add_comm]
  | group _ _ ihg ihr =>
    rw [List.cons_append, List.append_assoc, closingTail_opening, ihg, resumeTail, ihr,
      map_add_map_add, map_add_map_add, List.length_cons, List.length_append]
    rw [Nat.add_comm (List.length _) (List.length _)]
    rfl

theorem GroupRest.groupTail {b : Bracket} {g : Text} (h : GroupRest b true g) (r : Text) :
    b.groupTail (g ++ r) = .ok g.length := by
  rw [Bracket.groupTail, h.closingTail]
  simp [resumeTail, Except.map]

/-- The rests of open groups one after another, the innermost first. -/
def Unwinds : List Bracket → Bool → Text → Prop
  | [], _, s => s = []
  | b :: below, fresh, s => ∃ g r, s = g ++ r ∧ GroupRest b fresh g ∧ Unwinds below false r

theorem closingTail_ok {u : Fault} {top : Bracket} {below : List Bracket} {fresh : Bool} {t : Text}
    {n : Nat} (h : closingTail u top below fresh t = .ok n) :
    ∃ s r, t = s ++ r ∧ s.length = n ∧ Unwinds (top :: below) fresh s := by
  fun_induction CondParam.closingTail u top below fresh t generalizing n with
  | case1 => cases h
  | case2 => cases h
  | case3 top below fresh c cs b k hn ih =>
    obtain ⟨s, r, rfl, rfl, hs⟩ := Item.next_ok hn
    obtain ⟨m, hm, rfl⟩ := of_map_eq_ok h
    rw [List.drop_left] at ih hm
    obtain ⟨_, r, rfl, rfl, g, _, rfl, hg, g', q, rfl, hg', hq⟩ := ih hm
    cases hs
    exact ⟨b.opening :: (g ++ (g' ++ q)), r, rfl, rfl,
      b.opening :: (g ++ g'), q, by simp, .group hg hg', hq⟩
  | case4 fresh c cs b k hn =>
    obtain ⟨s, r, rfl, rfl, hs⟩ := Item.next_ok hn
    cases h
    cases hs
    exact ⟨[b.closing], r, rfl, rfl, [b.closing], [], rfl, .close, rfl⟩
  | case5 fresh c cs b k hn b' below ih =>
    obtain ⟨s, r, rfl, rfl, hs⟩ := Item.next_ok hn
    obtain ⟨m, hm, rfl⟩ := of_map_eq_ok h
    rw [List.drop_left] at ih hm
    obtain ⟨s', r, rfl, rfl, hs'⟩ := ih hm
    cases hs
    exact ⟨b.closing :: s', r, rfl, rfl, [b.closing], s', rfl, .close, hs'⟩
  | case6 => cases h
  | case7 top below fresh c cs item k ho hc hn ih =>
    obtain ⟨s, r, rfl, rfl, hs⟩ := Item.next_ok hn
    obtain ⟨m, hm, rfl⟩ := of_map_eq_ok h
    rw [List.drop_left] at ih hm
    obtain ⟨_, r, rfl, rfl, g, q, rfl, hg, hq⟩ := ih hm
    have hi := Item.isBracket_eq_false ho hc
    rw [List.append_assoc] at hs
    have hs := hs.restrict hg.ne_nil hg.closesQuote
    exact ⟨c :: s ++ (g ++ q), r, by simp, by simp; omega, c :: s ++ g, q, by simp,
      .item hs hi hg, hq⟩

/-- **A group is measured exactly where the grammar has one.** -/
theorem groupTail_ok {b : Bracket} {t : Text} {n : Nat} (h : b.groupTail t = .ok n) :
    ∃ g r, t = g ++ r ∧ g.length = n ∧ GroupRest b true g := by
  obtain ⟨_, r, rfl, hl, g, _, rfl, hg, rfl⟩ := closingTail_ok h
  exact ⟨g, r, by simp, by simpa using hl, hg⟩

theorem GroupRest.of_groupTail {b : Bracket} {g : Text} (h : b.groupTail g = .ok g.length) :
    GroupRest b true g := by
  obtain ⟨g', r, rfl, hl, hg⟩ := groupTail_ok h
  obtain rfl : r = [] := by simpa using hl
  rwa [List.append_nil]

/-! ## Between other brackets -/

theorem Bracket.inert_closing (b : Bracket) : Inert [b.closing] := by
  rintro c ⟨⟩
  cases b <;> exact ⟨rfl, by decide⟩

theorem Bracket.isSpace_opening (b : Bracket) : isSpace b.opening = false := by
  cases b <;> rfl

theorem Bracket.isSpace_closing (b : Bracket) : isSpace b.closing = false := by
  cases b <;> rfl

/-- **What fills one pair of brackets fills another.** -/
theorem GroupRest.reclose {b b' : Bracket} {fresh : Bool} {s : Text}
    (h : GroupRest b fresh (s ++ [b.closing])) : GroupRest b' fresh (s ++ [b'.closing]) := by
  generalize hg : s ++ [b.closing] = g at h
  induction h generalizing s with
  | close =>
    obtain rfl : s = [] := by simpa using hg
    exact .close
  | @item b fresh item t r ht hi hr ih =>
    obtain ⟨r, rfl⟩ := hr.closing_suffix
    rw [← List.append_assoc] at hg
    obtain rfl := List.append_cancel_right hg
    rw [List.append_assoc]
    exact .item (ht.exchange b.isSpace_closing b'.isSpace_closing b'.inert_closing []) hi (ih rfl)
  | @group b c fresh t r ht hr _ ih =>
    obtain ⟨r, rfl⟩ := hr.closing_suffix
    rw [← List.append_assoc, ← List.cons_append] at hg
    obtain rfl := List.append_cancel_right hg
    rw [List.cons_append, List.append_assoc]
    exact .group ht (ih rfl)

end CondParam
