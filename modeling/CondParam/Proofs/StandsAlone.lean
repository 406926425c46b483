import CondParam.Proofs.ArgumentText

/-!
# Code on its own

`StandsAlone fresh x`: the text `x` is code when a closing parenthesis follows, without commas and
comments outside its groups. Such text is code before a comma too (`StandsAlone.codeText`), and a
list without comments is cut into such texts (`ArgumentList.exists_pieces`). Whether a text stands
alone is found by cutting it (`standsAlone_iff`).
-/

set_option autoImplicit false

namespace CondParam

/-! ## Code in parentheses of its own -/

/-- The text is code when a closing parenthesis follows: whole groups, and items that are no comma,
no comment and no bracket. -/
inductive StandsAlone : Bool → Text → Prop
  | nil {fresh : Bool} : StandsAlone fresh []
  | item {fresh : Bool} {item : Item} {s x : Text} :
      Lexeme fresh item s (x ++ [.char ')']) → item.isBracket = false → item ≠ .comment →
      item ≠ .plain ',' → StandsAlone item.startsToken x → StandsAlone fresh (s ++ x)
  | group {fresh : Bool} {b : Bracket} {g x : Text} :
      GroupRest b true g → StandsAlone false x → StandsAlone fresh (b.opening :: (g ++ x))

namespace StandsAlone

theorem closesQuote {fresh : Bool} {x : Text} (h : StandsAlone fresh x) : ClosesQuote x := by
  cases h with
  | nil => rintro q s ⟨⟩
  | item hs _ _ _ _ => exact hs.closesQuote.append hs.ne_nil _
  | group _ _ =>
    rintro q s ⟨⟩ hq
    rw [Bracket.isQuote_opening] at hq
    cases hq

/-- Code is code before a comma too. -/
theorem codeText {fresh fresh' : Bool} {x : Text} (h : StandsAlone fresh x)
    (hf : fresh' = true → fresh = true) : CodeText fresh' x := by
  induction h generalizing fresh' with
  | nil => exact .nil
  | @item fresh item s x hs hb hi hp hx ih =>
    obtain ⟨ts, rfl, ht⟩ := ih id
    refine ⟨s :: ts, rfl, fun r spans hr ha => ?_⟩
    have hs' : Lexeme fresh item s (ts.flatten ++ r) := by
      by_cases hne : ts.flatten = []
      · rw [hne] at hs ⊢
        refine hs.alone.before hi ?_ hr
        rintro rfl
        cases hs
      · exact (hs.restrict hne hx.closesQuote).append r hne
    rw [List.append_assoc]
    exact .item (hs'.stale hi hf) hb hi hp (ht r spans hr ha)
  | @group fresh b g x hg _ ih =>
    obtain ⟨ts, rfl, ht⟩ := ih id
    refine ⟨(b.opening :: g) :: ts, by simp, fun r spans hr ha => ?_⟩
    rw [List.cons_append, List.append_assoc]
    exact .group hg (ht r spans hr ha)

/-- Behind a blank a token can start. -/
theorem of_cons_isSpace {fresh : Bool} {c : CodePoint} {x : Text} (h : StandsAlone fresh (c :: x))
    (hc : isSpace c = true) : StandsAlone true x := by
  have hm := notMem_lexicalMarks_of_isSpace hc
  generalize hw : c :: x = w at h
  cases h with
  | nil => cases hw
  | @item _ item s x' hs hb hi hp hx =>
    obtain ⟨d, s, rfl⟩ := List.exists_cons_of_ne_nil hs.ne_nil
    obtain ⟨rfl, rfl⟩ := List.cons.inj hw
    have hn := hs.next.symm.trans (Item.next_ordinary hm _)
    obtain ⟨rfl, hl⟩ := Prod.mk.inj (Except.ok.inj hn)
    obtain rfl := List.length_eq_zero_iff.1 hl
    have hf : (Item.plain c).startsToken = true := by
      simp [Item.startsToken, Item.endsToken, hc]
    rwa [hf] at hx
  | @group _ b g x' _ _ =>
    obtain ⟨rfl, -⟩ := List.cons.inj hw
    cases b <;> cases hc

theorem of_isBlank_append {w x : Text} (hw : w.isBlank = true) (h : StandsAlone true (w ++ x)) :
    StandsAlone true x := by
  induction w with
  | nil => exact h
  | cons c w ih =>
    obtain ⟨hc, hw⟩ := Text.isBlank_cons.1 hw
    exact ih hw (h.of_cons_isSpace hc)

end StandsAlone

/-! ## Lists without comments -/

/-- What follows an argument starts with a comma or a closing parenthesis. -/
def Stops (r : Text) : Prop := ∃ c r', r = c :: r' ∧ (c = ',' ∨ c = ')')

theorem Stops.isSpace_head {r : Text} (h : Stops r) : ∀ c ∈ r.head?, isSpace c = false := by
  obtain ⟨c, r, rfl, rfl | rfl⟩ := h <;> (rintro c ⟨⟩; rfl)

theorem Stops.commas {z : Text} (h : Stops z) (f : Text → Text) (ks : List Text) :
    Stops (ks.flatMap (fun k => .char ',' :: f k) ++ z) := by
  cases ks with
  | nil => exact h
  | cons k ks => exact ⟨_, _, rfl, .inl rfl⟩

theorem stops_closing (r : Text) : Stops (.char ')' :: r) := ⟨_, _, rfl, .inr rfl⟩

/-- A list without comments is its pieces, with commas between them. -/
theorem ArgumentList.exists_pieces {fresh : Bool} {spans : List Span} {s : Text}
    (h : ArgumentList fresh spans s) (hc : ∀ t, .comment t ∉ spans) :
    ∃ (k : Text) (ks : List Text), s = k ++ (ks.flatMap (.char ',' :: ·) ++ [.char ')']) ∧
      StandsAlone fresh k ∧ (∀ k' ∈ ks, StandsAlone true k') ∧
      ∀ offset piece,
        (piecesFrom offset piece spans).map (·.text) = (piece.text ++ k) :: ks := by
  induction h with
  | close => exact ⟨[], [], rfl, .nil, by simp, by simp [piecesFrom]⟩
  | comma _ ih =>
    obtain ⟨k, ks, rfl, hk, hks, hp⟩ := ih fun t ht => hc t (.tail _ ht)
    refine ⟨[], k :: ks, by simp, .nil, List.forall_mem_cons.2 ⟨hk, hks⟩, fun offset piece => ?_⟩
    simp [piecesFrom, hp]
  | comment _ _ _ => exact absurd (.head _) (hc _)
  | @item fresh item spans s r hs hb hi hp _ ih =>
    obtain ⟨k, ks, rfl, hk, hks, hpieces⟩ := ih fun t ht => hc t (.tail _ ht)
    refine ⟨s ++ k, ks, by simp, .item ?_ hb hi hp hk, hks, fun offset piece => ?_⟩
    · obtain ⟨c, r, he, hcr⟩ := (stops_closing []).commas id ks
      have hcs : isSpace c = false := by rcases hcr with rfl | rfl <;> rfl
      have he : ks.flatMap (.char ',' :: ·) ++ [.char ')'] = c :: r := he
      rw [he] at hs
      exact hs.exchange hcs rfl inert_closing []
    · simp [piecesFrom, hpieces]
  | @group b fresh spans g r hg _ ih =>
    obtain ⟨k, ks, rfl, hk, hks, hpieces⟩ := ih fun t ht => hc t (.tail _ ht)
    refine ⟨b.opening :: (g ++ k), ks, by simp, .group hg hk, hks, fun offset piece => ?_⟩
    simp [piecesFrom, hpieces]

/-- The span is neither a comment nor a comma. -/
def Span.isCode : Span → Bool
  | .code _ => true
  | _ => false

theorem exists_map_code {spans : List Span} (h : spans.all Span.isCode = true) :
    ∃ ts : List Text, spans = ts.map .code := by
  induction spans with
  | nil => exact ⟨[], rfl⟩
  | cons span spans ih =>
    rw [List.all_cons, Bool.and_eq_true] at h
    obtain ⟨ts, rfl⟩ := ih h.2
    cases span with
    | code t => exact ⟨t :: ts, rfl⟩
    | comment t => cases h.1
    | comma => cases h.1

/-- Code stands alone exactly if it fills parentheses and is cut into code only. -/
theorem standsAlone_iff {x : Text} : StandsAlone true x ↔
    (Bracket.paren.groupTail (x ++ [.char ')'])).toOption = some (x.length + 1) ∧
      (argumentSpans 1 true (x ++ [.char ')'])).toOption.any (·.all Span.isCode) = true := by
  constructor
  · intro h
    obtain ⟨ts, rfl, ht⟩ := h.codeText id
    have hl := ht [.char ')'] [] inert_closing fun _ => .close
    have hg := hl.groupRest.groupTail []
    have hs := hl.argumentSpans []
    rw [List.append_nil] at hg hs
    refine ⟨by rw [hg, List.length_append]; rfl, ?_⟩
    rw [show argumentSpans 1 true _ = _ from hs]
    simp [Except.toOption, Span.isCode]
  · rintro ⟨hg, hs⟩
    have hg : Bracket.paren.groupTail (x ++ [.char ')']) =
        .ok (x ++ [CodePoint.char ')']).length := by
      rw [List.length_append]
      exact eq_ok_of_toOption hg
    obtain ⟨spans, hl⟩ := (GroupRest.of_groupTail hg).argumentList rfl
    have hspans := hl.argumentSpans []
    rw [List.append_nil] at hspans
    rw [show argumentSpans 1 true _ = _ from hspans] at hs
    obtain ⟨ts, rfl⟩ := exists_map_code hs
    obtain ⟨k, ks, he, hk, -, hp⟩ := hl.exists_pieces (by simp)
    -- without commas there is one piece
    have hks := hp 0 ⟨0, []⟩
    rw [← List.append_nil (ts.map _), piecesFrom_code] at hks
    obtain rfl : [] = ks := (List.cons.inj hks).2
    obtain rfl : x = k := List.append_cancel_right he
    exact hk

instance (x : Text) : Decidable (StandsAlone true x) := decidable_of_iff _ standsAlone_iff.symm

end CondParam
