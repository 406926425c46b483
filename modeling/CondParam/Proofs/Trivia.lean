import CondParam.Proofs.Group
import CondParam.Proofs.Names
import CondParam.Script.Trivia

/-!
# The grammar of trivia

`Trivia wrap s`: `s` is white space and complete comments, a line comment with its newline; with
`wrap`, also backticks at the ends of lines. Between declarations `triviaLength` skips exactly what
`Trivia true` describes (`Trivia.triviaLength`, `triviaLength_ok`); before the keyword of the block
only `Trivia false` may stand between the attributes.
-/

set_option autoImplicit false

namespace CondParam

/-- White space, complete comments and, with `wrap`, backticks at the ends of lines. -/
inductive Trivia (wrap : Bool) : Text → Prop
  | nil : Trivia wrap []
  | space {c : CodePoint} {r : Text} : isSpace c = true → Trivia wrap r → Trivia wrap (c :: r)
  | block {s r : Text} :
      UpTo ['#', '>'] s → Trivia wrap r → Trivia wrap ('<' :: '#' :: (s ++ r))
  | line {s r : Text} :
      .char '\n' ∉ s → Trivia wrap r → Trivia wrap ('#' :: (s ++ .char '\n' :: r))
  | continued {c : CodePoint} {r : Text} :
      wrap = true → c = '\n' ∨ c = '\r' → Trivia wrap r → Trivia wrap (backtick :: c :: r)

namespace Trivia

theorem append {wrap : Bool} {s r : Text} (hs : Trivia wrap s) (hr : Trivia wrap r) :
    Trivia wrap (s ++ r) := by
  induction hs with
  | nil => exact hr
  | space hc _ ih => exact .space hc ih
  | block hu _ ih =>
    simp only [List.cons_append, List.append_assoc]
    exact .block hu ih
  | line hn _ ih =>
    simp only [List.cons_append, List.append_assoc]
    exact .line hn ih
  | continued hw hc _ ih => exact .continued hw hc ih

theorem wrap {s : Text} {b : Bool} (h : Trivia false s) : Trivia b s := by
  induction h with
  | nil => exact .nil
  | space hc _ ih => exact .space hc ih
  | block hu _ ih => exact .block hu ih
  | line hn _ ih => exact .line hn ih
  | continued hw _ _ _ => cases hw

theorem of_isBlank {b : Bool} {s : Text} (h : s.isBlank = true) : Trivia b s := by
  induction s with
  | nil => exact .nil
  | cons c s ih =>
    simp only [Text.isBlank, List.all_cons, Bool.and_eq_true] at h
    exact .space h.1 (ih h.2)

/-- The trivia behind white space at the front. -/
theorem tail {b : Bool} {c : CodePoint} {r : Text} (h : Trivia b (c :: r))
    (hc : isSpace c = true) : Trivia b r := by
  cases h with
  | space _ hr => exact hr
  | block _ _ => cases hc
  | line _ _ => cases hc
  | continued _ _ _ => cases hc

/-- The trivia behind a block comment at the front. -/
theorem of_block {b : Bool} {s r : Text} (hs : UpTo ['#', '>'] s)
    (h : Trivia b ('<' :: '#' :: (s ++ r))) : Trivia b r := by
  generalize hw : .char '<' :: .char '#' :: (s ++ r) = w at h
  cases h with
  | nil => cases hw
  | space hc _ => cases hw; cases hc
  | block hs' hr =>
    obtain ⟨-, rfl⟩ := hs.append_inj hs' (List.cons.inj (List.cons.inj hw).2).2
    exact hr
  | line _ _ => cases (List.cons.inj hw).1
  | continued _ _ _ => cases (List.cons.inj hw).1

/-- The trivia behind a line comment at the front. -/
theorem of_line {b : Bool} {s r : Text} (hs : .char '\n' ∉ s)
    (h : Trivia b ('#' :: (s ++ .char '\n' :: r))) : Trivia b r := by
  generalize hw : .char '#' :: (s ++ .char '\n' :: r) = w at h
  cases h with
  | nil => cases hw
  | space hc _ => cases hw; cases hc
  | block _ _ => cases (List.cons.inj hw).1
  | @line s' r' hs' hr =>
    have he : s ++ [.char '\n'] ++ r = s' ++ [.char '\n'] ++ r' := by
      simpa using (List.cons.inj hw).2
    obtain ⟨-, rfl⟩ := (UpTo.single hs).append_inj (.single hs') he
    exact hr
  | continued _ _ _ => cases (List.cons.inj hw).1

end Trivia

/-- A comment in front of trivia is trivia too: behind a line comment its newline follows, unless
the text ends there. -/
theorem Lexeme.trivia {fresh b : Bool} {s r v : Text} (h : Lexeme fresh .comment s (r ++ v))
    (hr : Trivia b r) (hv : v ≠ []) (hn : v.head? ≠ some (.char '\n')) : Trivia b (s ++ r) := by
  generalize hw : r ++ v = w at h
  cases h with
  | block hs => exact .block hs hr
  | @line s _ _ hs hl =>
    subst hw
    cases r with
    | nil =>
      rcases hl with hl | hl
      · exact absurd hl hv
      · exact absurd hl hn
    | cons c r =>
      obtain rfl : c = .char '\n' := by simpa using hl
      exact .line hs (hr.tail rfl)

/-! ## Skipping trivia -/

theorem triviaLength_space {c : CodePoint} (r : Text) (hc : isSpace c = true) :
    triviaLength (c :: r) = (triviaLength r).map (· + 1) := by
  rw [triviaLength, if_pos hc]

/-- A comment is skipped as a whole. -/
theorem triviaLength_comment {c : CodePoint} {s r : Text} (hc : isSpace c = false)
    (h : commentTail? true c (s ++ r) = some (.ok s.length)) :
    triviaLength (c :: (s ++ r)) = (triviaLength r).map (· + (s.length + 1)) := by
  rw [triviaLength, if_neg (by simp [hc]), h]
  simp only [List.drop_left]

/-- Where no trivia stands: not at a blank, a comment or a backtick at the end of its line. -/
theorem triviaLength_cons_eq_zero {c : CodePoint} {r : Text} :
    triviaLength (c :: r) = .ok 0 ↔
      isSpace c = false ∧ c ≠ '#' ∧ (c = '<' → r.head? ≠ some (.char '#')) ∧
        (c = backtick → r.head? ≠ some (.char '\n') ∧ r.head? ≠ some (.char '\r')) := by
  constructor
  · intro h
    have hmap : ∀ {x : Except Fault Nat} {n : Nat}, x.map (· + (n + 1)) ≠ .ok 0 := by
      intro x n hx
      obtain ⟨m, -, hm⟩ := of_map_eq_ok hx
      cases hm
    rw [triviaLength] at h
    split at h
    · exact absurd h hmap
    · rename_i hs
      split at h
      · cases h
      · exact absurd h hmap
      · rename_i hc
        obtain ⟨hl, hf⟩ := commentTail?_none hc
        split at h
        · exact absurd h hmap
        · rename_i hb
          exact ⟨by simpa using hs, hf rfl, hl,
            fun e => ⟨fun h => hb ⟨e, .inl h⟩, fun h => hb ⟨e, .inr h⟩⟩⟩
  · rintro ⟨hs, hc, hl, hb⟩
    rw [triviaLength, if_neg (by simp [hs]), commentTail?_eq_none hl (fun _ => hc)]
    simp only
    rw [if_neg]
    rintro ⟨e, h | h⟩
    · exact (hb e).1 h
    · exact (hb e).2 h

/-- Text that starts with none of the characters of trivia has none at its front. -/
theorem triviaLength_eq_zero {c : CodePoint} (r : Text) (hs : isSpace c = false)
    (hc : c ∉ ([.char '#', .char '<', backtick] : Text)) : triviaLength (c :: r) = .ok 0 := by
  simp only [List.mem_cons, List.not_mem_nil, or_false, not_or] at hc
  exact triviaLength_cons_eq_zero.2 ⟨hs, hc.1, (absurd · hc.2.1), (absurd · hc.2.2)⟩

/-- A front of a text that starts with no trivia starts with none. -/
theorem triviaLength_eq_zero_of_append {s r : Text} (h : triviaLength (s ++ r) = .ok 0) :
    triviaLength s = .ok 0 := by
  match s with
  | [] => rw [triviaLength]
  | [c] =>
    obtain ⟨hs, hc, -, -⟩ := triviaLength_cons_eq_zero.1 h
    exact triviaLength_cons_eq_zero.2 ⟨hs, hc, by simp, by simp⟩
  | c :: d :: s =>
    exact triviaLength_cons_eq_zero.2 (triviaLength_cons_eq_zero (r := d :: s ++ r).1 h)

/-- **Trivia at the front of a text is skipped**, and then what follows it. -/
theorem Trivia.triviaLength {wrap : Bool} {s : Text} (h : Trivia wrap s) (t : Text) :
    triviaLength (s ++ t) = (CondParam.triviaLength t).map (· + s.length) := by
  induction h with
  | nil => cases h : CondParam.triviaLength t <;> simp [h, Except.map]
  | space hc _ ih =>
    rw [List.cons_append, triviaLength_space _ hc, ih, map_add_map_add, List.length_cons]
  | @block s r hu _ ih =>
    have hc : commentTail? true '<' ((.char '#' :: s) ++ (r ++ t)) = some (.ok (s.length + 1)) :=
      commentTail?_block hu
    have he : .char '<' :: .char '#' :: (s ++ r) ++ t =
        .char '<' :: ((.char '#' :: s) ++ (r ++ t)) := by simp
    rw [he, triviaLength_comment rfl hc, ih, map_add_map_add]
    exact map_add_congr _ (by simp; omega)
  | @line s r hn hr ih =>
    have hc : commentTail? true '#' (s ++ .char '\n' :: (r ++ t)) = some (.ok s.length) :=
      commentTail?_line rfl hn (.inr rfl)
    have he : .char '#' :: (s ++ .char '\n' :: r) ++ t =
        .char '#' :: (s ++ .char '\n' :: (r ++ t)) := by simp
    rw [he, triviaLength_comment rfl hc, triviaLength_space _ rfl, ih, map_add_map_add,
      map_add_map_add]
    exact map_add_congr _ (by simp; omega)
  | @continued c r _ hc _ ih =>
    have hn : commentTail? true backtick (c :: (r ++ t)) = none :=
      commentTail?_eq_none (fun e => absurd e (by decide)) (fun _ => by decide)
    have hd : (c :: (r ++ t)).head? = some (.char '\n') ∨
        (c :: (r ++ t)).head? = some (.char '\r') := by simpa using hc
    rw [List.cons_append, List.cons_append, CondParam.triviaLength, if_neg (by decide), hn]
    simp only [true_and]
    rw [if_pos hd, List.drop_one, List.tail_cons, ih, map_add_map_add]
    rfl

/-- Trivia is skipped up to where no more stands. -/
theorem Trivia.triviaLength_eq {wrap : Bool} {s t : Text} (h : Trivia wrap s)
    (ht : CondParam.triviaLength t = .ok 0) : CondParam.triviaLength (s ++ t) = .ok s.length := by
  rw [h.triviaLength, ht]
  simp [Except.map]

/-- **What is skipped is trivia**, if anything stands behind it; no trivia is left there. -/
theorem triviaLength_ok {t : Text} {n : Nat} (h : triviaLength t = .ok n) :
    ∃ s r, t = s ++ r ∧ s.length = n ∧ triviaLength r = .ok 0 ∧ (r ≠ [] → Trivia true s) := by
  fun_induction triviaLength t generalizing n with
  | case1 =>
    cases h
    exact ⟨[], [], rfl, rfl, by rw [triviaLength], fun _ => .nil⟩
  | case2 c cs hc ih =>
    obtain ⟨m, hm, rfl⟩ := of_map_eq_ok h
    obtain ⟨s, r, rfl, rfl, h₀, hs⟩ := ih hm
    exact ⟨c :: s, r, rfl, rfl, h₀, fun hr => .space hc (hs hr)⟩
  | case3 => cases h
  | case4 c cs hc k hk ih =>
    obtain ⟨m, hm, rfl⟩ := of_map_eq_ok h
    obtain ⟨u, v, rfl, rfl, hu⟩ := commentTail?_ok hk
    rw [List.drop_left] at ih hm
    obtain ⟨s, r, rfl, rfl, h₀, hs⟩ := ih hm
    refine ⟨c :: u ++ s, r, by simp, by simp; omega, h₀, fun hr => ?_⟩
    refine hu.trivia (hs hr) hr fun hn => ?_
    -- white space would have been skipped
    cases r with
    | nil => exact hr rfl
    | cons d r =>
      obtain rfl : d = .char '\n' := by simpa using hn
      rw [triviaLength_space _ rfl] at h₀
      obtain ⟨k, -, hk⟩ := of_map_eq_ok h₀
      cases hk
  | case5 c cs hc hk hb ih =>
    obtain ⟨m, hm, rfl⟩ := of_map_eq_ok h
    obtain ⟨rfl, hb⟩ := hb
    cases cs with
    | nil => simp at hb
    | cons d cs =>
      obtain ⟨s, r, hsr, rfl, h₀, hs⟩ := ih hm
      obtain rfl : cs = s ++ r := hsr
      exact ⟨backtick :: d :: s, r, rfl, rfl, h₀, fun hr =>
        .continued rfl (by simpa using hb) (hs hr)⟩
  | case6 c cs hc hk hb =>
    cases h
    refine ⟨[], c :: cs, rfl, rfl, ?_, fun _ => .nil⟩
    rw [triviaLength, if_neg hc, hk]
    simp only
    rw [if_neg hb]

end CondParam
