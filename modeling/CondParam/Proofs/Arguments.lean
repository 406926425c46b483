import CondParam.Proofs.Group
import CondParam.Script.Argument
import Mathlib.Data.List.Forall2

/-!
# The grammar of argument lists

`ArgumentList fresh spans s`: `s` is the rest of a parenthesised argument list, its closing
parenthesis included, and `spans` is how it is cut. Every rest of a parenthesised group is cut in
one way (`GroupRest.argumentList`), and `argumentSpans` finds it (`ArgumentList.argumentSpans`) and
nothing else (`exists_argumentSpans`).
-/

set_option autoImplicit false

namespace CondParam

/-- The rest of an argument list and its spans. -/
inductive ArgumentList : Bool → List Span → Text → Prop
  | close {fresh : Bool} : ArgumentList fresh [] [.char ')']
  | comma {fresh : Bool} {spans : List Span} {r : Text} :
      ArgumentList true spans r → ArgumentList fresh (.comma :: spans) (.char ',' :: r)
  | comment {fresh : Bool} {spans : List Span} {s r : Text} :
      Lexeme fresh .comment s r → ArgumentList false spans r →
      ArgumentList fresh (.comment s :: spans) (s ++ r)
  | item {fresh : Bool} {item : Item} {spans : List Span} {s r : Text} :
      Lexeme fresh item s r → item.isBracket = false → item ≠ .comment → item ≠ .plain ',' →
      ArgumentList item.startsToken spans r → ArgumentList fresh (.code s :: spans) (s ++ r)
  | group {b : Bracket} {fresh : Bool} {spans : List Span} {g r : Text} :
      GroupRest b true g → ArgumentList false spans r →
      ArgumentList fresh (.code (b.opening :: g) :: spans) (b.opening :: (g ++ r))

namespace ArgumentList

theorem groupRest {fresh : Bool} {spans : List Span} {s : Text} (h : ArgumentList fresh spans s) :
    GroupRest .paren fresh s := by
  induction h with
  | close => exact .close
  | comma _ ih => exact .item (s := [.char ',']) (.ordinary (by decide)) rfl ih
  | comment hs _ ih => exact .item hs rfl ih
  | item hs hi _ _ _ ih => exact .item hs hi ih
  | group hg _ ih => exact .group hg ih

theorem length_pos {fresh : Bool} {spans : List Span} {s : Text} (h : ArgumentList fresh spans s) :
    0 < s.length :=
  List.length_pos_iff.2 h.groupRest.ne_nil

end ArgumentList

/-- The rest of a group is the rest of an argument list, if the brackets are parentheses. -/
theorem GroupRest.argumentList {b : Bracket} {fresh : Bool} {s : Text} (h : GroupRest b fresh s)
    (hb : b = .paren) : ∃ spans, ArgumentList fresh spans s := by
  induction h with
  | close => subst hb; exact ⟨[], .close⟩
  | @item b fresh item s r hs hi _ ih =>
    obtain ⟨spans, hr⟩ := ih hb
    by_cases hc : item = .comment
    · subst hc
      exact ⟨_, .comment hs hr⟩
    by_cases hp : item = .plain ','
    · subst hp
      cases hs
      exact ⟨_, .comma hr⟩
    · exact ⟨_, .item hs hi hc hp hr⟩
  | group hg _ _ ih =>
    obtain ⟨spans, hr⟩ := ih hb
    exact ⟨_, .group hg hr⟩

/-! ## Cutting a list -/

section
variable {stop : Nat} {fresh : Bool}

theorem argumentSpans_stop {c : CodePoint} {cs : Text} (h : cs.length + 1 ≤ stop) :
    argumentSpans stop fresh (c :: cs) = .ok [] := by
  rw [argumentSpans, if_pos h]

theorem argumentSpans_comment {s r : Text} (h : Lexeme fresh .comment s r)
    (hl : stop ≤ r.length) :
    argumentSpans stop fresh (s ++ r) = (argumentSpans stop false r).map (.comment s :: ·) := by
  obtain ⟨c, s, rfl⟩ := List.exists_cons_of_ne_nil h.ne_nil
  rw [List.cons_append, argumentSpans, if_neg (by simp; omega), h.next]
  simp

theorem argumentSpans_group {b : Bracket} {g r : Text} (h : GroupRest b true g)
    (hl : stop ≤ r.length) :
    argumentSpans stop fresh (b.opening :: (g ++ r)) =
      (argumentSpans stop false r).map (.code (b.opening :: g) :: ·) := by
  have ho : Lexeme fresh (.opening b) [b.opening] (g ++ r) := .opening
  rw [argumentSpans, if_neg (by simp; omega),
    show Item.next fresh b.opening (g ++ r) = _ from ho.next, List.length_nil]
  simp only [h.groupTail, List.drop_left, List.take_left]

theorem argumentSpans_comma {r : Text} (hl : stop ≤ r.length) :
    argumentSpans stop fresh (.char ',' :: r) = (argumentSpans stop true r).map (.comma :: ·) := by
  have hn : Item.next fresh ',' r = .ok (.plain ',', 0) :=
    Item.next_ordinary (by decide) r
  rw [argumentSpans, if_neg (by omega), hn]
  rfl

theorem argumentSpans_item {item : Item} {s r : Text} (h : Lexeme fresh item s r)
    (hi : item.isBracket = false) (hc : item ≠ .comment) (hp : item ≠ .plain ',')
    (hl : stop ≤ r.length) :
    argumentSpans stop fresh (s ++ r) =
      (argumentSpans stop item.startsToken r).map (.code s :: ·) := by
  obtain ⟨c, s, rfl⟩ := List.exists_cons_of_ne_nil h.ne_nil
  have hne : c ≠ ',' := fun e => h.head_ne hi hp (.inl e)
  rw [List.cons_append, argumentSpans, if_neg (by simp; omega), h.next]
  cases item with
  | comment => exact absurd rfl hc
  | opening b => cases hi
  | closing b => cases hi
  | _ => simp [hne]

end

/-- **An argument list is cut into its spans**, whatever stands behind it. -/
theorem ArgumentList.argumentSpans {fresh : Bool} {spans : List Span} {s : Text}
    (h : ArgumentList fresh spans s) (r : Text) :
    argumentSpans (r.length + 1) fresh (s ++ r) = .ok spans := by
  induction h with
  | close => exact argumentSpans_stop (by simp)
  | @comma _ _ s hs ih =>
    have hl := hs.length_pos
    rw [List.cons_append, argumentSpans_comma (by simp; omega), ih]
    rfl
  | comment hc hs ih =>
    have hl := hs.length_pos
    have hc := hc.append r hs.groupRest.ne_nil
    rw [List.append_assoc, argumentSpans_comment hc (by simp; omega), ih]
    rfl
  | item hc hi hn hp hs ih =>
    have hl := hs.length_pos
    have hc := hc.append r hs.groupRest.ne_nil
    rw [List.append_assoc, argumentSpans_item hc hi hn hp (by simp; omega), ih]
    rfl
  | group hg hs ih =>
    have hl := hs.length_pos
    rw [List.cons_append, List.append_assoc, argumentSpans_group hg (by simp; omega), ih]
    rfl

/-- **The spans are the list**, up to its closing parenthesis. -/
theorem ArgumentList.source_eq {fresh : Bool} {spans : List Span} {s : Text}
    (h : ArgumentList fresh spans s) : s = spans.flatMap Span.source ++ [.char ')'] := by
  induction h with
  | close => rfl
  | comma _ ih => rw [List.flatMap_cons, List.append_assoc, ← ih]; rfl
  | comment _ _ ih => rw [List.flatMap_cons, List.append_assoc, ← ih]; rfl
  | item _ _ _ _ _ ih => rw [List.flatMap_cons, List.append_assoc, ← ih]; rfl
  | group _ _ ih => rw [List.flatMap_cons, List.append_assoc, ← ih]; rfl

/-- **A list in parentheses is cut without a fault**, exactly up to the closing one. -/
theorem exists_argumentSpans {args : Text} {n : Nat} (h : Bracket.paren.groupTail args = .ok n) :
    ∃ spans, argumentSpans ((args.drop n).length + 1) true args = .ok spans ∧
      ArgumentList true spans (args.take n) ∧
      spans.flatMap Span.source = args.take (n - 1) := by
  obtain ⟨s, rest, rfl, rfl, hg⟩ := groupTail_ok h
  obtain ⟨spans, hs⟩ := hg.argumentList rfl
  rw [List.drop_left, List.take_left]
  refine ⟨spans, hs.argumentSpans rest, hs, ?_⟩
  have hsource := hs.source_eq
  have hl : s.length - 1 = (spans.flatMap Span.source).length := by
    rw [hsource, List.length_append, List.length_singleton, Nat.add_sub_cancel]
  rw [hl, hsource, List.append_assoc, List.take_left]

/-! ## Reading the arguments -/

/-- The arguments are split without a fault of a scanner. -/
theorem splitArguments_eq {args : Text} {n : Nat} {spans : List Span}
    (hs : argumentSpans ((args.drop n).length + 1) true args = .ok spans) :
    splitArguments ⟨args, n⟩ = readArguments args.length (argumentPieces spans) := by
  rw [splitArguments, hs]

/-- The arguments are read one by one. -/
theorem readArguments_eq_ok_iff {left : Nat} {pieces : List Piece} {args : List Argument} :
    readArguments left pieces = .ok args ↔
      List.Forall₂ (fun p a => readArgument p.text = .ok a) pieces args := by
  induction pieces generalizing args with
  | nil =>
    rw [readArguments, List.forall₂_nil_left_iff, Except.ok.injEq]
    exact eq_comm
  | cons p pieces ih =>
    rw [readArguments, List.forall₂_cons_left_iff]
    cases hp : readArgument p.text with
    | error e => simp
    | ok a =>
      constructor
      · intro h
        obtain ⟨as, has, rfl⟩ := of_map_eq_ok h
        exact ⟨a, as, rfl, ih.1 has, rfl⟩
      · rintro ⟨a', as, ha, has, rfl⟩
        cases ha
        rw [ih.2 has]
        rfl

end CondParam
