import CondParam.Proofs.Declaration

/-!
# Expressions as arguments

A well-formed expression reads up to its own end (`WellFormedExpression`). Between commas it is cut
into code spans only (`WellFormedExpression.codeText`), so a list of such texts is cut into pieces
that hold them (`exists_argumentList`). What is read of a piece depends on how it starts: with a
name and an `=` it is a named argument (`splitAssignment?_assign`, `splitAssignment?_eq_none`).
-/

set_option autoImplicit false

namespace CondParam

/-! ## Well-formed expressions -/

/-- Whether a comment stands in the text outside strings and groups. -/
def hasComment (fresh : Bool) : Text → Bool
  | [] => false
  | c :: cs =>
    match Item.next fresh c cs with
    | .error _ => false
    | .ok (.comment, _) => true
    | .ok (.opening b, _) =>
      match b.groupTail cs with
      | .error _ => false
      | .ok n => hasComment false (cs.drop n)
    | .ok (item, n) => hasComment item.startsToken (cs.drop n)
termination_by cs => cs.length

/-- An expression without comments and blanks at its ends, read exactly up to the parenthesis behind
it. -/
structure WellFormedExpression (e : Text) : Prop where
  ne_nil : e ≠ []
  strip_eq : e.strip = e
  head_ne : e.head? ≠ some backtick
  hasComment_eq : hasComment true e = false
  reach_eq : expressionReach true (e ++ [.char ')']) = .ok ⟨e.length, e.length⟩

theorem wellFormedExpression_iff {e : Text} :
    WellFormedExpression e ↔ e ≠ [] ∧ e.strip = e ∧ e.head? ≠ some backtick ∧
      hasComment true e = false ∧
      (expressionReach true (e ++ [.char ')'])).toOption = some ⟨e.length, e.length⟩ :=
  ⟨fun ⟨h₁, h₂, h₃, h₄, h₅⟩ => ⟨h₁, h₂, h₃, h₄, by rw [h₅]; rfl⟩,
    fun ⟨h₁, h₂, h₃, h₄, h₅⟩ => ⟨h₁, h₂, h₃, h₄, eq_ok_of_toOption h₅⟩⟩

instance (e : Text) : Decidable (WellFormedExpression e) :=
  decidable_of_iff _ wellFormedExpression_iff.symm

/-- The text starts with an identifier, blanks and an `=` that no `=` follows. -/
def StartsAssignment (t : Text) : Prop :=
  ∃ name w r : Text, t = name ++ (w ++ .char '=' :: r) ∧ name.isIdentifier = true ∧
    w.isBlank = true ∧ r.head? ≠ some (.char '=')

/-! ## Code in an argument list -/

/-- Text that is cut into code spans only, before a comma or the closing parenthesis. -/
def CodeText (fresh : Bool) (x : Text) : Prop :=
  ∃ ts : List Text, ts.flatten = x ∧ ∀ (r : Text) (spans : List Span), Inert r →
    (∀ fresh, ArgumentList fresh spans r) → ArgumentList fresh (ts.map .code ++ spans) (x ++ r)

theorem CodeText.nil {fresh : Bool} : CodeText fresh [] := ⟨[], rfl, fun _ _ _ hr => hr fresh⟩

theorem CodeText.ordinary {fresh : Bool} {c : CodePoint} {x : Text} (hc : c ∉ lexicalMarks)
    (hne : c ≠ ',') (h : ∀ fresh, CodeText fresh x) : CodeText fresh (c :: x) := by
  obtain ⟨ts, rfl, hx⟩ := h (Item.plain c).startsToken
  refine ⟨[c] :: ts, rfl, fun r spans hi hr => ?_⟩
  exact .item (s := [c]) (.ordinary hc) rfl (by simp) (by simpa using hne) (hx r spans hi hr)

/-- Ordinary characters in front of code are code. -/
theorem CodeText.append {s x : Text} (hs : ∀ c ∈ s, c ∉ lexicalMarks ∧ c ≠ ',')
    (h : ∀ fresh, CodeText fresh x) : ∀ fresh, CodeText fresh (s ++ x) := by
  induction s with
  | nil => exact h
  | cons c s ih =>
    obtain ⟨hc, hs⟩ := List.forall_mem_cons.1 hs
    exact fun fresh => .ordinary hc.1 hc.2 (ih hs)

theorem ordinary_of_isBlank {w : Text} (hw : w.isBlank = true) :
    ∀ c ∈ w, c ∉ lexicalMarks ∧ c ≠ ',' := by
  intro c hc
  have hs := Text.isBlank_iff.1 hw c hc
  exact ⟨notMem_lexicalMarks_of_isSpace hs, by rintro rfl; cases hs⟩

theorem ordinary_of_isIdentifier {name : Text} (hn : name.isIdentifier = true) :
    ∀ c ∈ name, c ∉ lexicalMarks ∧ c ≠ ',' := by
  intro c hc
  have hs := Text.isNameChar_of_isIdentifier hn c hc
  exact ⟨notMem_lexicalMarks_of_isNameChar hs, by rintro rfl; cases hs⟩

/-- What is no comment at the start of a token is none elsewhere. -/
theorem Lexeme.stale {fresh fresh' : Bool} {item : Item} {s r : Text} (h : Lexeme fresh item s r)
    (hi : item ≠ .comment) (hf : fresh' = true → fresh = true) : Lexeme fresh' item s r := by
  cases h with
  | quoted hq hs hr => exact .quoted hq hs hr
  | here hq hs hb => exact .here hq hs hb
  | block _ => exact absurd rfl hi
  | line _ _ _ => exact absurd rfl hi
  | escape => exact .escape
  | lone => exact .lone
  | opening => exact .opening
  | closing => exact .closing
  | plain hp ha hl =>
    exact .plain ⟨hp.notQuote, hp.notEscape, hp.notOpening, hp.notClosing,
      fun h => hp.notComment (hf h)⟩ ha hl

section
variable {fresh : Bool}

theorem hasComment_item {item : Item} {s r : Text} (h : Lexeme fresh item s r)
    (hi : item.isBracket = false) (hc : hasComment fresh (s ++ r) = false) :
    item ≠ .comment ∧ hasComment item.startsToken r = false := by
  obtain ⟨c, s, rfl⟩ := List.exists_cons_of_ne_nil h.ne_nil
  rw [List.cons_append, hasComment, h.next] at hc
  cases item with
  | comment => cases hc
  | opening b => cases hi
  | closing b => cases hi
  | _ => exact ⟨by simp, by simpa using hc⟩

theorem hasComment_group {b : Bracket} {g r : Text} (h : GroupRest b true g)
    (hc : hasComment fresh (b.opening :: (g ++ r)) = false) : hasComment false r = false := by
  have ho : Lexeme fresh (.opening b) [b.opening] (g ++ r) := .opening
  rw [hasComment, show Item.next fresh b.opening (g ++ r) = _ from ho.next] at hc
  simpa only [h.groupTail, List.drop_left] using hc

end

/-- An expression without comments is code. -/
theorem ExpressionText.codeText {fresh fresh' : Bool} {e : Text} (h : ExpressionText fresh e)
    (hc : hasComment fresh e = false) (hf : fresh' = true → fresh = true) : CodeText fresh' e := by
  induction h generalizing fresh' with
  | @last fresh item s hs hb hp ht he =>
    have hi : item ≠ .comment := by rintro rfl; cases ht
    refine ⟨[s], by simp, fun r spans hr ha => ?_⟩
    exact .item ((hs.before hi he hr).stale hi hf) hb hi hp (ha _)
  | @lastGroup _ b g hg =>
    refine ⟨[b.opening :: g], by simp, fun r spans hr ha => ?_⟩
    exact .group hg (ha _)
  | @item fresh item s e hs hb hp he ih =>
    obtain ⟨hi, hc⟩ := hasComment_item hs hb hc
    obtain ⟨ts, rfl, hx⟩ := ih hc id
    refine ⟨s :: ts, rfl, fun r spans hr ha => ?_⟩
    rw [List.append_assoc]
    exact .item ((hs.append r he.ne_nil).stale hi hf) hb hi hp (hx r spans hr ha)
  | @group _ b g e hg he ih =>
    obtain ⟨ts, rfl, hx⟩ := ih (hasComment_group hg hc) id
    refine ⟨(b.opening :: g) :: ts, by simp, fun r spans hr ha => ?_⟩
    rw [List.cons_append, List.append_assoc]
    exact .group hg (hx r spans hr ha)

/-- A lexeme that is no comment does not start as one. -/
theorem Lexeme.head_of_ne_comment {item : Item} {c : CodePoint} {s r : Text}
    (h : Lexeme true item (c :: s) r) (hi : item ≠ .comment) :
    c ≠ '#' ∧ (c = '<' → (s ++ r).head? ≠ some (.char '#')) := by
  generalize hw : c :: s = w at h
  cases h with
  | quoted hq _ _ =>
    cases hw
    exact ⟨(by rintro rfl; cases hq), (by rintro rfl; cases hq)⟩
  | block _ => exact absurd rfl hi
  | line _ _ _ => exact absurd rfl hi
  | @opening b => cases hw; cases b <;> exact ⟨by decide, fun e => absurd e (by decide)⟩
  | @closing b => cases hw; cases b <;> exact ⟨by decide, fun e => absurd e (by decide)⟩
  | plain hp _ hl => cases hw; exact ⟨hp.notComment rfl, hl⟩
  | _ => cases hw; exact ⟨by decide, fun e => absurd e (by decide)⟩

/-- An expression without comments starts with no comment. -/
theorem ExpressionText.head_of_hasComment {c : CodePoint} {e : Text}
    (h : ExpressionText true (c :: e)) (hc : hasComment true (c :: e) = false) :
    c ≠ '#' ∧ (c = '<' → e.head? ≠ some (.char '#')) := by
  generalize hw : c :: e = w at h hc
  cases h with
  | @last _ item s hs _ _ ht _ =>
    subst hw
    have hi : item ≠ .comment := by rintro rfl; cases ht
    simpa using hs.head_of_ne_comment hi
  | @item _ item s r hs hb _ _ =>
    obtain ⟨hi, -⟩ := hasComment_item hs hb hc
    obtain ⟨d, s, rfl⟩ := List.exists_cons_of_ne_nil hs.ne_nil
    cases hw
    exact hs.head_of_ne_comment hi
  | @lastGroup _ b => cases hw; cases b <;> exact ⟨by decide, fun e => absurd e (by decide)⟩
  | @group _ b => cases hw; cases b <;> exact ⟨by decide, fun e => absurd e (by decide)⟩

namespace WellFormedExpression

variable {e : Text} (h : WellFormedExpression e)

include h

theorem expressionText : ExpressionText true e := by
  obtain ⟨e', w, r, he, hr, hs⟩ := expressionReach_ok h.reach_eq (by simp)
  obtain ⟨hl, -⟩ := Reach.mk.inj hr
  obtain ⟨rfl, -⟩ := List.append_inj he hl
  rcases hs.text with rfl | ht
  · exact absurd rfl h.ne_nil
  · exact ht

theorem codeText (fresh : Bool) : CodeText fresh e :=
  h.expressionText.codeText h.hasComment_eq fun _ => rfl

theorem head_notSpace : ∀ c ∈ e.head?, isSpace c = false := (Text.strip_eq_self_iff.1 h.strip_eq).1

theorem last_notSpace : ∀ c ∈ e.getLast?, isSpace c = false :=
  (Text.strip_eq_self_iff.1 h.strip_eq).2

/-- No trivia stands at the front of the expression. -/
theorem triviaLength_eq : triviaLength e = .ok 0 := by
  have hs := h.head_notSpace
  have hx := h.expressionText
  have hc := h.hasComment_eq
  have hb := h.head_ne
  cases e with
  | nil => exact absurd rfl h.ne_nil
  | cons c e =>
    obtain ⟨h₁, h₂⟩ := hx.head_of_hasComment hc
    exact triviaLength_cons_eq_zero.2 ⟨hs c rfl, h₁, h₂, fun e => absurd (congrArg some e) hb⟩

end WellFormedExpression

/-! ## Arguments -/

/-- The text of a piece is an argument behind blanks. -/
def Piece.Holds (p : Piece) (x : Text) : Prop := ∃ w, w.isBlank = true ∧ p.text = w ++ x

theorem piecesFrom_code {offset : Nat} {piece : Piece} (ts : List Text) (spans : List Span) :
    piecesFrom offset piece (ts.map .code ++ spans) =
      piecesFrom (offset + ts.flatten.length) { piece with text := piece.text ++ ts.flatten }
        spans := by
  induction ts generalizing offset piece with
  | nil => simp
  | cons t ts ih =>
    simp only [List.map_cons, List.cons_append, piecesFrom, ih, List.flatten_cons,
      List.length_append, List.append_assoc, Nat.add_assoc]

theorem inert_comma {r : Text} : Inert (.char ',' :: r) := by
  rintro c ⟨⟩
  exact ⟨rfl, by decide⟩

theorem inert_closing {r : Text} : Inert (.char ')' :: r) := by
  rintro c ⟨⟩
  exact ⟨rfl, by decide⟩

/-- Joined texts are cut at the commas between them. -/
theorem exists_spans_join {w b x : Text} {xs : List Text} (hw : w.isBlank = true)
    (hb : b.isBlank = true) (h : ∀ y ∈ x :: xs, ∀ fresh, CodeText fresh y) :
    ∃ spans : List Span,
      ArgumentList true spans (b ++ (Text.join (.char ',' :: w) (x :: xs) ++ [.char ')'])) ∧
      ∀ offset start,
        List.Forall₂ Piece.Holds (piecesFrom offset ⟨start, []⟩ spans) (x :: xs) := by
  induction xs generalizing x b with
  | nil =>
    obtain ⟨ts, ht, hx⟩ := CodeText.append (ordinary_of_isBlank hb) (h x (.head _)) true
    refine ⟨ts.map .code ++ [], ?_, fun offset start => ?_⟩
    · rw [Text.join_singleton, ← List.append_assoc]
      exact hx _ [] inert_closing fun _ => .close
    · rw [piecesFrom_code, piecesFrom]
      exact .cons ⟨b, hb, ht⟩ .nil
  | cons x' xs ih =>
    obtain ⟨spans, hs, hp⟩ := ih hw fun y hy => h y (.tail _ hy)
    obtain ⟨ts, ht, hx⟩ := CodeText.append (ordinary_of_isBlank hb) (h x (.head _)) true
    refine ⟨ts.map .code ++ .comma :: spans, ?_, fun offset start => ?_⟩
    · have he : b ++ (Text.join (.char ',' :: w) (x :: x' :: xs) ++ [.char ')']) =
          b ++ x ++ .char ',' :: (w ++ (Text.join (.char ',' :: w) (x' :: xs) ++ [.char ')'])) := by
        rw [Text.join_cons_cons]
        simp
      rw [he]
      exact hx _ _ inert_comma fun _ => .comma hs
    · rw [piecesFrom_code, piecesFrom]
      exact .cons ⟨b, hb, ht⟩ (hp _ _)

theorem Piece.Holds.not_isBlank {p : Piece} {x : Text} (h : p.Holds x) (hx : x ≠ [])
    (hs : ∀ c ∈ x.head?, isSpace c = false) : p.text.isBlank = false := by
  obtain ⟨w, -, he⟩ := h
  obtain ⟨c, x, rfl⟩ := List.exists_cons_of_ne_nil hx
  rw [← Bool.not_eq_true, he]
  intro hb
  have hc := Text.isBlank_iff.1 hb c (by simp)
  rw [hs c rfl] at hc
  cases hc

/-- The spans of a joined list of arguments, and the piece of each. -/
theorem exists_argumentList {w : Text} (xs : List Text) (hw : w.isBlank = true)
    (hc : ∀ x ∈ xs, ∀ fresh, CodeText fresh x)
    (hx : ∀ x ∈ xs, x ≠ [] ∧ ∀ c ∈ x.head?, isSpace c = false) :
    ∃ spans : List Span,
      ArgumentList true spans (Text.join (.char ',' :: w) xs ++ [.char ')']) ∧
      List.Forall₂ Piece.Holds (argumentPieces spans) xs := by
  cases xs with
  | nil =>
    refine ⟨[], .close, ?_⟩
    rw [argumentPieces, piecesFrom]
    exact .nil
  | cons x xs =>
    obtain ⟨spans, hs, hp⟩ := exists_spans_join (b := []) hw rfl hc
    refine ⟨spans, hs, ?_⟩
    have hp := hp 0 0
    unfold argumentPieces
    split
    · rename_i piece he
      rw [he] at hp
      obtain ⟨hx₁, hx₂⟩ := hx x (.head _)
      rw [if_neg]
      · exact hp
      · rw [((List.forall₂_cons.1 hp).1).not_isBlank hx₁ hx₂]
        decide
    · exact hp

theorem splitAssignment?_eq_none {t : Text} (h : ¬ StartsAssignment t) :
    splitAssignment? t = none := by
  unfold splitAssignment?
  split
  · rfl
  · rename_i n hn
    obtain ⟨name, r, rfl, hl, hi, -⟩ := Text.identifierLength_ok hn
    rw [← hl, List.drop_left]
    split
    · rename_i value hv
      rw [if_pos]
      by_contra hne
      refine h ⟨name, r.takeWhile isSpace, value, ?_, hi, Text.isBlank_takeWhile r, hne⟩
      rw [← hv, List.takeWhile_append_dropWhile]
    · rfl

theorem isNameChar_head_assign {w r : Text} (hw : w.isBlank = true) :
    ∀ c ∈ (w ++ .char '=' :: r).head?, isNameChar c = false := by
  intro c hc
  cases w with
  | nil => cases hc; rfl
  | cons d w => cases hc; exact isNameChar_of_isSpace (Text.isBlank_cons.1 hw).1

theorem splitAssignment?_assign {name w r : Text} (hn : name.isIdentifier = true)
    (hw : w.isBlank = true) (hr : r.head? ≠ some (.char '=')) :
    splitAssignment? (name ++ (w ++ .char '=' :: r)) = some (name, r.strip) := by
  have hl := Text.identifierLength_append hn (isNameChar_head_assign (r := r) hw)
  have hd : (w ++ .char '=' :: r).dropWhile isSpace = .char '=' :: r :=
    Text.dropWhile_isSpace_append hw (by rintro c ⟨⟩; decide)
  unfold splitAssignment?
  split
  · rename_i h₀
    obtain ⟨c, s, rfl, -⟩ := Text.exists_of_isIdentifier hn
    rw [hl] at h₀
    cases h₀
  · rw [hl, List.drop_left, hd]
    simp only [if_neg hr, List.take_left]

theorem startsAssignment_iff {t : Text} :
    StartsAssignment t ↔ (splitAssignment? t).isSome = true := by
  constructor
  · rintro ⟨name, w, r, rfl, hn, hw, hr⟩
    rw [splitAssignment?_assign hn hw hr]
    rfl
  · intro h
    by_contra hn
    rw [splitAssignment?_eq_none hn] at h
    cases h

instance (t : Text) : Decidable (StartsAssignment t) := decidable_of_iff _ startsAssignment_iff.symm

theorem Text.isIdentifier_strip {name : Text} (h : name.isIdentifier = true) :
    name.strip = name := by
  refine Text.strip_eq_self_iff.2 ⟨fun c hc => ?_, fun c hc => ?_⟩
  · exact isSpace_of_isNameChar (Text.isNameChar_of_isIdentifier h c (List.mem_of_head? hc))
  · exact isSpace_of_isNameChar (Text.isNameChar_of_isIdentifier h c (List.mem_of_getLast? hc))

/-- A positional argument is read back. -/
theorem readArgument_positional {w e : Text} (hw : w.isBlank = true) (he : WellFormedExpression e)
    (hi : e.isIdentifier = false) (ha : ¬ StartsAssignment e) :
    readArgument (w ++ e) = .ok (.positional e) := by
  have hs : (w ++ e).strip = e := (Text.strip_append_of_isBlank hw).trans he.strip_eq
  have hne : e.isEmpty = false := by simpa using he.ne_nil
  simp [readArgument, hs, hne, splitAssignment?_eq_none ha, hi]

end CondParam
