import CondParam.Proofs.Printing
import CondParam.Proofs.Regeneration

/-!
# What is kept of an argument

An argument list is cut into spans, and what is kept of an argument is its spans of code
(`exists_spans_of_mem`). A span of code is a group or a single item, so a character that opens or
closes nothing is a span of its own and the next span starts behind it (`exists_span_behind`). What
is read of a kept text is spelled out by `IsArgument` (`readArgument_ok`).
-/

set_option autoImplicit false

namespace CondParam

/-! ## Spans of code -/

/-- A whole group, or an item that is no comma, no comment and no bracket. -/
inductive CodeSpan : Text → Prop
  | item {fresh : Bool} {item : Item} {s r : Text} :
      Lexeme fresh item s r → item.isBracket = false → item ≠ .comment → item ≠ .plain ',' →
      CodeSpan s
  | group {b : Bracket} {g : Text} : GroupRest b true g → CodeSpan (b.opening :: g)

theorem ArgumentList.codeSpan {fresh : Bool} {spans : List Span} {s t : Text}
    (h : ArgumentList fresh spans s) (ht : .code t ∈ spans) : CodeSpan t ∧ t <:+: s := by
  induction h with
  | close => cases ht
  | comma _ ih =>
    have ht := List.mem_of_ne_of_mem (by simp) ht
    exact ⟨(ih ht).1, (ih ht).2.trans (List.suffix_cons _ _).isInfix⟩
  | comment _ _ ih =>
    have ht := List.mem_of_ne_of_mem (by simp) ht
    exact ⟨(ih ht).1, (ih ht).2.trans (List.suffix_append _ _).isInfix⟩
  | item hs hb hc hp _ ih =>
    rcases List.mem_cons.1 ht with he | ht
    · cases he
      exact ⟨.item hs hb hc hp, (List.prefix_append _ _).isInfix⟩
    · exact ⟨(ih ht).1, (ih ht).2.trans (List.suffix_append _ _).isInfix⟩
  | @group b _ _ g r hg _ ih =>
    rw [← List.cons_append]
    rcases List.mem_cons.1 ht with he | ht
    · cases he
      exact ⟨.group hg, (List.prefix_append _ _).isInfix⟩
    · exact ⟨(ih ht).1, (ih ht).2.trans (List.suffix_append _ _).isInfix⟩

namespace CodeSpan

variable {c : CodePoint} {t : Text}

theorem ne_nil (h : CodeSpan t) : t ≠ [] := by
  cases h with
  | item hs _ _ _ => exact hs.ne_nil
  | group _ => simp

theorem head_ne (h : CodeSpan (c :: t)) : ¬ (c = ',' ∨ c = ')') := by
  generalize hw : c :: t = w at h
  cases h with
  | item hs hb _ hp =>
    subst hw
    exact hs.head_ne hb hp
  | @group b _ _ =>
    cases hw
    cases b <;> decide

/-- A character that opens nothing is a span of its own. -/
theorem single (h : CodeSpan (c :: t)) (hc : c ∉ lexicalMarks) : t = [] := by
  generalize hw : c :: t = w at h
  cases h with
  | @item fresh item _ r hs _ _ _ =>
    subst hw
    have hn := hs.next.symm.trans (Item.next_ordinary hc (t ++ r))
    exact List.length_eq_zero_iff.1 (Prod.mk.inj (Except.ok.inj hn)).2
  | @group b _ _ =>
    cases hw
    cases b <;> exact absurd hc (by decide)

/-- A bracket opens a whole group. -/
theorem groupRest {b : Bracket} (h : CodeSpan (b.opening :: t)) : GroupRest b true t := by
  generalize hw : b.opening :: t = w at h
  cases h with
  | @item fresh item _ r hs hb _ _ =>
    subst hw
    have ho : Lexeme fresh (.opening b) [b.opening] (t ++ r) := .opening
    have hn := hs.next.symm.trans ho.next
    rw [(Prod.mk.inj (Except.ok.inj hn)).1] at hb
    cases hb
  | @group b' g hg =>
    obtain ⟨hb, rfl⟩ := List.cons.inj hw
    have hb : b = b' := by
      cases b <;> cases b' <;> first | rfl | cases hb
    exact hb ▸ hg

end CodeSpan

/-- Behind characters that open and close nothing the next span starts. -/
theorem exists_span_behind {ts : List Text} {c : CodePoint} {u x : Text}
    (hts : ∀ t ∈ ts, CodeSpan t) (hu : ∀ d ∈ u, d ∉ lexicalMarks)
    (h : ts.flatten = u ++ c :: x) : ∃ t ts', c :: t ∈ ts ∧ x = t ++ List.flatten ts' := by
  induction ts generalizing u with
  | nil => simp at h
  | cons t ts ih =>
    obtain ⟨ht, hrest⟩ := List.forall_mem_cons.1 hts
    obtain ⟨d, t, rfl⟩ := List.exists_cons_of_ne_nil ht.ne_nil
    cases u with
    | nil =>
      obtain ⟨rfl, hx⟩ := List.cons.inj h
      exact ⟨t, ts, .head _, hx.symm⟩
    | cons e u =>
      obtain ⟨rfl, hx⟩ := List.cons.inj h
      obtain ⟨he, hu⟩ := List.forall_mem_cons.1 hu
      obtain rfl := ht.single he
      obtain ⟨t, ts', hm, rfl⟩ := ih hrest hu hx
      exact ⟨t, ts', .tail _ hm, rfl⟩

/-! ## Pieces -/

theorem exists_spans_of_mem_piecesFrom {offset : Nat} {piece p : Piece} {spans : List Span}
    (h : p ∈ piecesFrom offset piece spans) : ∃ ts : List Text,
      (p.text = piece.text ++ ts.flatten ∨ p.text = ts.flatten) ∧ ∀ t ∈ ts, .code t ∈ spans := by
  induction spans generalizing offset piece with
  | nil =>
    obtain rfl : p = piece := by simpa [piecesFrom] using h
    exact ⟨[], .inl (by simp), by simp⟩
  | cons span spans ih =>
    have later {ts : List Text} (hts : ∀ t ∈ ts, .code t ∈ spans) :
        ∀ t ∈ ts, .code t ∈ span :: spans := fun t ht => .tail _ (hts t ht)
    cases span with
    | code s =>
      obtain ⟨ts, hp | hp, hts⟩ := ih h
      · refine ⟨s :: ts, .inl (by simp [hp]), List.forall_mem_cons.2 ⟨.head _, later hts⟩⟩
      · exact ⟨ts, .inr hp, later hts⟩
    | comment s =>
      obtain ⟨ts, hp, hts⟩ := ih h
      exact ⟨ts, hp, later hts⟩
    | comma =>
      rcases List.mem_cons.1 h with rfl | h
      · exact ⟨[], .inl (by simp), by simp⟩
      · obtain ⟨ts, hp, hts⟩ := ih h
        exact ⟨ts, .inr (by simpa using hp), later hts⟩

/-- A single blank piece is no argument; otherwise each piece is one. -/
theorem argumentPieces_eq (spans : List Span) :
    argumentPieces spans = [] ∨ argumentPieces spans = piecesFrom 0 ⟨0, []⟩ spans := by
  unfold argumentPieces
  split
  · rename_i piece he
    rw [he]
    split
    · exact .inl rfl
    · exact .inr rfl
  · exact .inr rfl

/-- **The kept text of an argument is spans of code.** -/
theorem exists_spans_of_mem {spans : List Span} {p : Piece} (h : p ∈ argumentPieces spans) :
    ∃ ts : List Text, p.text = ts.flatten ∧ ∀ t ∈ ts, .code t ∈ spans := by
  rcases argumentPieces_eq spans with he | he
  · rw [he] at h
    cases h
  · rw [he] at h
    obtain ⟨ts, hp, hts⟩ := exists_spans_of_mem_piecesFrom h
    exact ⟨ts, by simpa using hp, hts⟩

/-! ## What is read of a kept text -/

/-- The text of an argument, without blanks at its ends. -/
inductive IsArgument : Text → Argument → Prop
  | positional {e : Text} : e ≠ [] → e.isIdentifier = false → ¬ StartsAssignment e →
      IsArgument e (.positional e)
  | flag {name : Text} : name.isIdentifier = true → IsArgument name (.named ⟨name, none⟩)
  | assigned {name w r : Text} : name.isIdentifier = true → w.isBlank = true →
      r.head? ≠ some (.char '=') → r.strip ≠ [] →
      IsArgument (name ++ (w ++ .char '=' :: r)) (.named ⟨name, some r.strip⟩)

/-- **What was read is an argument.** -/
theorem readArgument_ok {x : Text} {a : Argument} (h : readArgument x = .ok a) :
    IsArgument x.strip a := by
  unfold readArgument at h
  dsimp only at h
  split at h
  · cases h
  · rename_i hne
    split at h
    · rename_i name value hs
      split at h
      · cases h
      · rename_i hv
        cases h
        obtain ⟨name, w, r, he, hn, hw, hr⟩ := startsAssignment_iff.2 (Option.isSome_of_eq_some hs)
        rw [he, splitAssignment?_assign hn hw hr] at hs
        cases hs
        rw [he]
        exact .assigned hn hw hr (by simpa using hv)
    · rename_i hs
      have ha : ¬ StartsAssignment x.strip := by
        rw [startsAssignment_iff, hs]
        decide
      split at h
      · rename_i hi
        cases h
        exact .flag hi
      · rename_i hi
        cases h
        exact .positional (by simpa using hne) (by simpa using hi) ha

/-! ## Annotations of a script -/

/-- The text `x` is kept of spans of code in `s`, behind blanks. -/
def Kept (s x : Text) : Prop :=
  ∃ (ts : List Text) (w w' : Text), w.isBlank = true ∧ ts.flatten = w ++ (x ++ w') ∧
    ∀ t ∈ ts, CodeSpan t ∧ t <:+: s

theorem mem_of_mem_positionalArguments {args : List Argument} {e : Text}
    (h : e ∈ positionalArguments args) : .positional e ∈ args := by
  obtain ⟨arg, harg, he⟩ := List.mem_filterMap.1 h
  cases arg with
  | positional t => cases he; exact harg
  | named a => cases he

theorem mem_of_mem_namedArguments {args : List Argument} {a : NamedArgument}
    (h : a ∈ namedArguments args) : .named a ∈ args := by
  obtain ⟨arg, harg, he⟩ := List.mem_filterMap.1 h
  cases arg with
  | positional t => cases he
  | named a => cases he; exact harg

theorem exists_piece {pieces : List Piece} {args : List Argument} {arg : Argument}
    (h : List.Forall₂ (fun p a => readArgument p.text = .ok a) pieces args) (ha : arg ∈ args) :
    ∃ p ∈ pieces, readArgument p.text = .ok arg := by
  induction h with
  | nil => cases ha
  | cons hp _ ih =>
    rcases List.mem_cons.1 ha with rfl | ha
    · exact ⟨_, .head _, hp⟩
    · obtain ⟨p, hm, hp⟩ := ih ha
      exact ⟨p, .tail _ hm, hp⟩

/-- **The arguments of an annotation are kept of its text.** -/
theorem AnnotationText.kept {s : Text} {a : Annotation} {arg : Argument} (h : AnnotationText s a)
    (ha : arg ∈ a.arguments) : ∃ x, Kept s x ∧ x.strip = x ∧ IsArgument x arg := by
  cases h with
  | @mk v tag y a _ _ _ hy =>
    cases hy with
    | blank _ => cases ha
    | @arguments w args w' spans arguments _ hl _ hf =>
      have ha : arg ∈ arguments := by
        rcases List.mem_append.1 ha with ha | ha
        · obtain ⟨e, he, rfl⟩ := List.mem_map.1 ha
          exact mem_of_mem_positionalArguments he
        · obtain ⟨n, hn, rfl⟩ := List.mem_map.1 ha
          exact mem_of_mem_namedArguments hn
      obtain ⟨piece, hp, hr⟩ := exists_piece hf ha
      obtain ⟨ts, ht, hts⟩ := exists_spans_of_mem hp
      obtain ⟨u, u', hu, -, he⟩ := piece.text.exists_strip
      refine ⟨_, ⟨ts, u, u', hu, ht ▸ he, fun t hm => ?_⟩, piece.text.strip_strip,
        readArgument_ok hr⟩
      obtain ⟨hc, hi⟩ := hl.codeSpan (hts t hm)
      refine ⟨hc, hi.trans ⟨.char '[' :: (v ++ (tag ++ (w ++ [.char '(']))), w' ++ [.char ']'], ?_⟩⟩
      simp

theorem AnnotationsText.annotationText {s : Text} {as : List Annotation}
    (h : AnnotationsText s as) : ∀ a ∈ as, AnnotationText a.extent a := by
  induction h with
  | nil => simp
  | cons hs _ _ ih => exact List.forall_mem_cons.2 ⟨by rwa [hs.extent_eq], ih⟩

theorem ParameterText.annotationText {s : Text} {p : Parameter} (h : ParameterText s p) :
    ∀ a ∈ p.annotations, AnnotationText a.extent a := by
  cases h with
  | mk has _ _ => exact has.annotationText

/-- The annotations of a script stand in it as they are. -/
theorem Script.annotationText {t : Text} {b : ParamBlock} {p : Parameter} {a : Annotation}
    (h : Script.read t = .ok { block := some b }) (hp : p ∈ b.parameters)
    (ha : a ∈ p.annotations) : AnnotationText a.extent a := by
  obtain ⟨rest, -, hb⟩ := Script.read_ok h
  obtain ⟨_, _, _, -, -, hs⟩ := readBlock_ok hb
  exact (hs.parameterText p hp).annotationText a ha

end CondParam
