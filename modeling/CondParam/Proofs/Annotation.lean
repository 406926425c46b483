import CondParam.Proofs.Arguments
import CondParam.Proofs.Names
import CondParam.Proofs.Trivia
import CondParam.Script.Annotation

/-!
# The grammar of annotations

`AnnotationText s a`: `s` is a square group that holds a tag and, in parentheses, the arguments of
the annotation `a`. `readAnnotation` reads exactly these, whatever stands behind them
(`AnnotationText.readAnnotation`, `readAnnotation_ok`). `AnnotationsText` is a sequence of
annotations with trivia behind each.
-/

set_option autoImplicit false

namespace CondParam

/-! ## Tags -/

/-- What may stand in the name of a tag after its first character. -/
def isTagChar (c : CodePoint) : Bool := isNameChar c || c == '.' || c == backtick

/-- A name in which dots and backticks may stand after the first character. -/
def IsTagName (s : Text) : Prop :=
  ∃ c cs, s = c :: cs ∧ isNameStart c = true ∧ ∀ d ∈ cs, isTagChar d = true

/-- Square groups one after another. -/
inductive TagGroups : Text → Prop
  | nil : TagGroups []
  | cons {g r : Text} : IsGroup .square g → TagGroups r → TagGroups (g ++ r)

/-- A name and the square groups behind it. -/
def IsTag (s : Text) : Prop := ∃ name groups, s = name ++ groups ∧ IsTagName name ∧ TagGroups groups

theorem IsTagName.tagNameLength {s r : Text} (h : IsTagName s)
    (hr : ∀ c ∈ r.head?, isTagChar c = false) : tagNameLength (s ++ r) = s.length := by
  obtain ⟨c, s, rfl, hc, hs⟩ := h
  rw [List.cons_append, CondParam.tagNameLength, if_pos hc]
  exact congrArg (List.length · + 1) (Text.takeWhile_append_stop hs hr)

theorem IsTagName.length_ne_zero {s : Text} (h : IsTagName s) : s.length ≠ 0 := by
  obtain ⟨c, s, rfl, -⟩ := h
  simp

/-- Blanks in front of a tag name are skipped. -/
theorem IsTagName.dropWhile_isSpace {w s : Text} (h : IsTagName s) (hw : w.isBlank = true)
    (r : Text) : (w ++ (s ++ r)).dropWhile isSpace = s ++ r := by
  refine Text.dropWhile_isSpace_append hw fun c hc => ?_
  obtain ⟨d, s, rfl, hd, -⟩ := h
  cases hc
  exact isSpace_of_isNameChar (isNameChar_of_isNameStart hd)

theorem tagNameLength_ok {t : Text} (h : tagNameLength t ≠ 0) :
    ∃ s r, t = s ++ r ∧ s.length = tagNameLength t ∧ IsTagName s := by
  cases t with
  | nil => exact absurd rfl h
  | cons c t =>
    by_cases hc : isNameStart c = true
    · refine ⟨c :: t.takeWhile isTagChar, t.dropWhile isTagChar, ?_, ?_, c, _, rfl, hc, ?_⟩
      · rw [List.cons_append, List.takeWhile_append_dropWhile]
      · rw [tagNameLength, if_pos hc]
        rfl
      · exact fun d hd => List.mem_takeWhile_imp hd
    · rw [tagNameLength, if_neg hc] at h
      exact absurd rfl h

theorem TagGroups.tagGroupsLength {close : Nat} {s r : Text} (h : TagGroups s)
    (hr : r.head? ≠ some (.char '[')) (hc : close ≤ r.length) :
    tagGroupsLength close (s ++ r) = .ok s.length := by
  induction h with
  | nil =>
    cases r with
    | nil => rw [List.nil_append, CondParam.tagGroupsLength]; rfl
    | cons c r =>
      rw [List.nil_append, CondParam.tagGroupsLength, if_neg (fun h => hr (by rw [h.1]; rfl))]
      rfl
  | cons hg _ ih =>
    obtain ⟨g, rfl, hg⟩ := hg
    rw [List.append_assoc, List.cons_append, CondParam.tagGroupsLength,
      if_pos ⟨rfl, by simp; omega⟩, hg.groupTail]
    simp only [List.drop_left, ih, Except.map, List.length_append, List.length_cons]
    rw [Nat.add_comm]

theorem TagGroups.eq_nil_or_head {s : Text} (h : TagGroups s) :
    s = [] ∨ s.head? = some (.char '[') := by
  cases h with
  | nil => exact .inl rfl
  | cons hg _ =>
    obtain ⟨g, rfl, -⟩ := hg
    exact .inr rfl

theorem tagGroupsLength_ok {close n : Nat} {t : Text} (h : tagGroupsLength close t = .ok n) :
    ∃ s r, t = s ++ r ∧ s.length = n ∧ TagGroups s := by
  fun_induction CondParam.tagGroupsLength close t generalizing n with
  | case1 => cases h; exact ⟨[], [], rfl, rfl, .nil⟩
  | case2 => cases h
  | case3 c cs hc k hk ih =>
    obtain ⟨m, hm, rfl⟩ := of_map_eq_ok h
    obtain ⟨g, r, rfl, rfl, hg⟩ := groupTail_ok hk
    rw [List.drop_left] at ih hm
    obtain ⟨s, r, rfl, rfl, hs⟩ := ih hm
    obtain ⟨rfl, -⟩ := hc
    refine ⟨(.char '[' :: g) ++ s, r, by simp, by simp; omega, .cons ⟨g, rfl, hg⟩ hs⟩
  | case4 c cs hc => cases h; exact ⟨[], _, rfl, rfl, .nil⟩

/-! ## What follows the tag -/

/-- The text between a tag and the closing bracket: blank, or the arguments. -/
inductive AfterTag (tag extent : Text) : Text → Annotation → Prop
  | blank {w : Text} : w.isBlank = true →
      AfterTag tag extent w { tag, kind := .typeConstraint, extent }
  | arguments {w args w' : Text} {spans : List Span} {arguments : List Argument} :
      w.isBlank = true → ArgumentList true spans args → w'.isBlank = true →
      List.Forall₂ (fun p a => readArgument p.text = .ok a) (argumentPieces spans) arguments →
      AfterTag tag extent (w ++ .char '(' :: (args ++ w'))
        { tag, kind := .attr, positional := positionalArguments arguments,
          named := namedArguments arguments, extent }

section
variable {tag extent : Text}

/-- What stands behind a tag: nothing, arguments, the end of the text, or a fault. -/
theorem argumentsAfterTag_cases {rest after : Text} {close : Nat}
    (ha : (if rest.length < close then rest else rest.dropWhile isSpace) = after) :
    (after.length = close ∧ argumentsAfterTag close rest = .ok none) ∨
    (∃ args n, after = .char '(' :: args ∧ Bracket.paren.groupTail args = .ok n ∧
      ((args.drop n).dropWhile isSpace).length = close ∧
      argumentsAfterTag close rest = .ok (some ⟨args, n⟩)) ∨
    (after = [] ∧ argumentsAfterTag close rest = .error .overrun) ∨
    ∃ f, argumentsAfterTag close rest = .error (.fault f) := by
  unfold argumentsAfterTag
  rw [ha]
  simp only
  split
  · rename_i hl
    exact .inl ⟨hl, rfl⟩
  · refine .inr ?_
    cases after with
    | nil => exact .inr (.inl ⟨rfl, rfl⟩)
    | cons c args =>
      by_cases hc : c = '('
      · subst hc
        simp only [if_true]
        split
        · exact .inr (.inr ⟨_, rfl⟩)
        · rename_i n hg
          split
          · rename_i hl
            exact .inl ⟨args, n, rfl, hg, hl, rfl⟩
          · exact .inr (.inr ⟨_, rfl⟩)
      · exact .inr (.inr ⟨_, if_neg hc⟩)

/-- What is read behind a tag: nothing, arguments, the end of the text, or a fault. -/
theorem readAfterTag_cases {rest after : Text} {close : Nat}
    (ha : (if rest.length < close then rest else rest.dropWhile isSpace) = after) :
    (after.length = close ∧
      readAfterTag tag extent close rest = .ok { tag, kind := .typeConstraint, extent }) ∨
    (∃ args n spans arguments, after = .char '(' :: args ∧ Bracket.paren.groupTail args = .ok n ∧
      ((args.drop n).dropWhile isSpace).length = close ∧
      argumentSpans ((args.drop n).length + 1) true args = .ok spans ∧
      readArguments args.length (argumentPieces spans) = .ok arguments ∧
      readAfterTag tag extent close rest =
        .ok { tag, kind := .attr, positional := positionalArguments arguments,
              named := namedArguments arguments, extent }) ∨
    (after = [] ∧ readAfterTag tag extent close rest = .error .overrun) ∨
    ∃ f, readAfterTag tag extent close rest = .error (.fault f) := by
  rcases argumentsAfterTag_cases ha with ⟨hl, h⟩ | ⟨args, n, rfl, hg, hn, h⟩ | ⟨hl, h⟩ | ⟨f, h⟩
  · exact .inl ⟨hl, by rw [readAfterTag, h]; rfl⟩
  · refine .inr ?_
    simp only [readAfterTag, h, annotationOf, splitArguments]
    split
    · exact .inr (.inr ⟨_, rfl⟩)
    · rename_i arguments hr
      split at hr
      · cases hr
      · rename_i spans hs
        exact .inl ⟨args, n, spans, arguments, rfl, hg, hn, hs, hr, rfl⟩
  · exact .inr (.inr (.inl ⟨hl, by rw [readAfterTag, h]⟩))
  · exact .inr (.inr (.inr ⟨f, by rw [readAfterTag, h]⟩))

/-- Nothing is read of a text that ends before the annotation does. -/
theorem le_length_of_readAfterTag {close : Nat} {rest : Text} {a : Annotation}
    (h : readAfterTag tag extent close rest = .ok a) : close ≤ rest.length := by
  refine Nat.le_of_not_lt fun hl => ?_
  rcases readAfterTag_cases (if_pos hl) with ⟨he, -⟩ |
    ⟨args, n, spans, arguments, rfl, -, hd, -⟩ | ⟨-, ho⟩ | ⟨f, hf⟩
  · omega
  · have h₁ := (List.dropWhile_suffix isSpace (l := args.drop n)).length_le
    have h₂ := (List.drop_suffix n args).length_le
    rw [List.length_cons] at hl
    omega
  · cases ho.symm.trans h
  · cases hf.symm.trans h

theorem AfterTag.readAfterTag {x : Text} {a : Annotation} (h : AfterTag tag extent x a) (r : Text) :
    readAfterTag tag extent (r.length + 1) (x ++ .char ']' :: r) = .ok a := by
  cases h with
  | blank hx =>
    have hd : (x ++ .char ']' :: r).dropWhile isSpace = .char ']' :: r :=
      Text.dropWhile_isSpace_append hx (by rintro c ⟨⟩; decide)
    have hl : ¬ (x ++ .char ']' :: r).length < r.length + 1 := by
      rw [List.length_append, List.length_cons]
      omega
    simp only [CondParam.readAfterTag, argumentsAfterTag, if_neg hl, hd, List.length_cons, if_true,
      annotationOf]
  | @arguments w args w' spans arguments hw ha hw' hf =>
    have hd : (w ++ .char '(' :: (args ++ (w' ++ .char ']' :: r))).dropWhile isSpace =
        .char '(' :: (args ++ (w' ++ .char ']' :: r)) :=
      Text.dropWhile_isSpace_append hw (by rintro c ⟨⟩; decide)
    have hd' : (w' ++ .char ']' :: r).dropWhile isSpace = .char ']' :: r :=
      Text.dropWhile_isSpace_append hw' (by rintro c ⟨⟩; decide)
    have hl : ¬ (w ++ .char '(' :: (args ++ (w' ++ .char ']' :: r))).length < r.length + 1 := by
      simp
      omega
    have hne : ¬ (args ++ (w' ++ .char ']' :: r)).length + 1 = r.length + 1 := by
      simp
      omega
    have hr : readArguments (args ++ (w' ++ .char ']' :: r)).length (argumentPieces spans) =
        .ok arguments := readArguments_eq_ok_iff.2 hf
    rw [List.append_assoc, List.cons_append, List.append_assoc]
    simp only [CondParam.readAfterTag, argumentsAfterTag, if_neg hl, hd, if_neg hne, if_true,
      ha.groupRest.groupTail, List.drop_left, hd', List.length_cons, annotationOf, splitArguments,
      ha.argumentSpans, hr]

/-- Two ends of a text are the same if they are as long. -/
theorem eq_of_suffix_of_length {s t u : Text} (hs : s <:+ u) (ht : t <:+ u)
    (h : s.length = t.length) : s = t :=
  (List.suffix_of_suffix_length_le hs ht (Nat.le_of_eq h)).eq_of_length h

/-- The list that starts a text `y` before the closing bracket fills `y` up to blanks, if only
blanks stand between it and the bracket. -/
theorem argumentList_of_groupTail {y r : Text} {n : Nat}
    (h : Bracket.paren.groupTail (y ++ .char ']' :: r) = .ok n)
    (hn : (((y ++ .char ']' :: r).drop n).dropWhile isSpace).length = r.length + 1) :
    ∃ args w spans, y = args ++ w ∧ w.isBlank = true ∧ ArgumentList true spans args ∧
      argumentSpans (((y ++ .char ']' :: r).drop n).length + 1) true (y ++ .char ']' :: r) =
        .ok spans := by
  obtain ⟨args, tail, he, rfl, hg⟩ := groupTail_ok h
  obtain ⟨spans, hs⟩ := hg.argumentList rfl
  rw [he, List.drop_left] at hn ⊢
  have ht : tail.dropWhile isSpace = .char ']' :: r := by
    refine eq_of_suffix_of_length (u := y ++ .char ']' :: r) ?_ (List.suffix_append _ _) hn
    rw [he]
    exact (List.dropWhile_suffix _).trans (List.suffix_append _ _)
  refine ⟨args, tail.takeWhile isSpace, spans, ?_, Text.isBlank_takeWhile tail, hs,
    hs.argumentSpans tail⟩
  rw [← List.takeWhile_append_dropWhile (p := isSpace) (l := tail), ht, ← List.append_assoc] at he
  exact List.append_cancel_right he

theorem dropWhile_isSpace_closing (x r : Text) :
    (x ++ .char ']' :: r).dropWhile isSpace = x.dropWhile isSpace ++ .char ']' :: r := by
  rw [List.dropWhile_append]
  split
  · rename_i h
    rw [List.isEmpty_iff.1 h]
    rfl
  · rfl

theorem readAfterTag_ok {x r : Text} {a : Annotation}
    (h : readAfterTag tag extent (r.length + 1) (x ++ .char ']' :: r) = .ok a) :
    AfterTag tag extent x a := by
  have hl : ¬ (x ++ .char ']' :: r).length < r.length + 1 := by
    rw [List.length_append, List.length_cons]
    omega
  have hw := Text.isBlank_takeWhile x
  have hx := (List.takeWhile_append_dropWhile (p := isSpace) (l := x)).symm
  rcases readAfterTag_cases ((if_neg hl).trans (dropWhile_isSpace_closing x r)) with ⟨he, ha⟩ |
    ⟨args, n, spans, arguments, he, hg, hn, hs, hr, ha⟩ | ⟨-, ho⟩ | ⟨f, hf⟩
  · cases ha.symm.trans h
    have hy : x.dropWhile isSpace = [] := List.length_eq_zero_iff.1 (by simpa using he)
    rw [hy, List.append_nil] at hx
    exact .blank (hx ▸ hw)
  · cases ha.symm.trans h
    cases hy : x.dropWhile isSpace with
    | nil => rw [hy] at he; cases he
    | cons c y =>
      rw [hy] at hx he
      obtain ⟨rfl, rfl⟩ := List.cons.inj he
      obtain ⟨args, w, spans', rfl, hw', hargs, hs'⟩ := argumentList_of_groupTail hg hn
      cases hs'.symm.trans hs
      rw [hx]
      exact .arguments hw hargs hw' (readArguments_eq_ok_iff.1 hr)
  · cases ho.symm.trans h
  · cases hf.symm.trans h

/-- Neither a tag character nor a square bracket stands behind the tag. -/
theorem AfterTag.head {x r : Text} {a : Annotation} (h : AfterTag tag extent x a) :
    ∀ c ∈ (x ++ .char ']' :: r).head?, isTagChar c = false ∧ c ≠ '[' := by
  have hb : ∀ {w v : Text}, w.isBlank = true → (∀ c ∈ v.head?, isTagChar c = false ∧ c ≠ '[') →
      ∀ c ∈ (w ++ v).head?, isTagChar c = false ∧ c ≠ '[' := by
    intro w v hw hv c hc
    cases w with
    | nil => exact hv c hc
    | cons d w =>
      cases hc
      have hd := Text.isBlank_iff.1 hw c (.head _)
      refine ⟨?_, fun e => by subst e; cases hd⟩
      have h₁ : c ≠ '.' := fun e => by subst e; cases hd
      have h₂ : c ≠ backtick := fun e => by subst e; cases hd
      simp [isTagChar, isNameChar_of_isSpace hd, h₁, h₂]
  cases h with
  | blank hx => exact hb hx (by rintro c ⟨⟩; exact ⟨rfl, by decide⟩)
  | arguments hw _ _ _ =>
    rw [List.append_assoc]
    exact hb hw (by rintro c ⟨⟩; exact ⟨rfl, by decide⟩)

end

/-! ## Annotations -/

/-- A whole annotation. -/
inductive AnnotationText : Text → Annotation → Prop
  | mk {w tag x : Text} {a : Annotation} :
      w.isBlank = true → IsTag tag → IsGroup .square ('[' :: (w ++ (tag ++ (x ++ [.char ']'])))) →
      AfterTag tag ('[' :: (w ++ (tag ++ (x ++ [.char ']'])))) x a →
      AnnotationText ('[' :: (w ++ (tag ++ (x ++ [.char ']'])))) a

/-- From the closing bracket on, one character more than behind it is left. -/
theorem GroupRest.length_drop {b : Bracket} {fresh : Bool} {g : Text} (h : GroupRest b fresh g)
    (r : Text) : ((g ++ r).drop (g.length - 1)).length = r.length + 1 := by
  have hl : 0 < g.length := List.length_pos_iff.2 h.ne_nil
  rw [List.length_drop, List.length_append]
  omega

namespace AnnotationText

theorem isGroup {s : Text} {a : Annotation} (h : AnnotationText s a) : IsGroup .square s := by
  cases h with
  | mk _ _ hg _ => exact hg

theorem extent_eq {s : Text} {a : Annotation} (h : AnnotationText s a) : a.extent = s := by
  cases h with
  | mk _ _ _ ha => cases ha <;> rfl

/-- **A whole annotation is read**, whatever stands behind it. -/
theorem readAnnotation {cs : Text} {a : Annotation} (h : AnnotationText ('[' :: cs) a) (r : Text) :
    readAnnotation (cs ++ r) = .ok ⟨a, cs.length⟩ := by
  cases h with
  | @mk w tag x a hw ht hg ha =>
    obtain ⟨name, groups, rfl, hn, hgs⟩ := ht
    obtain ⟨g, he, hg⟩ := hg
    obtain rfl := (List.cons.inj he).2
    have hs : w ++ (name ++ groups ++ (x ++ [.char ']'])) ++ r =
        w ++ (name ++ (groups ++ (x ++ .char ']' :: r))) := by simp
    have hb := hn.dropWhile_isSpace hw (groups ++ (x ++ .char ']' :: r))
    have hk : tagNameLength (name ++ (groups ++ (x ++ .char ']' :: r))) = name.length := by
      refine hn.tagNameLength fun c hc => ?_
      rcases hgs.eq_nil_or_head with rfl | hh
      · exact (ha.head c hc).1
      · rw [List.head?_append, hh] at hc
        cases hc
        rfl
    have hm : tagGroupsLength (r.length + 1) (groups ++ (x ++ .char ']' :: r)) =
        .ok groups.length :=
      hgs.tagGroupsLength (fun h => (ha.head _ h).2 rfl) (by simp)
    have ht : readTag (w ++ (name ++ groups ++ (x ++ [.char ']'])) ++ r) =
        .ok ⟨name ++ groups, List.length (w ++ (name ++ groups ++ (x ++ [CodePoint.char ']']))),
          r.length + 1, x ++ .char ']' :: r⟩ := by
      rw [readTag, hg.groupTail]
      simp only [hg.length_drop]
      rw [hs, hb]
      split
      · rename_i h₀
        exact absurd (hk.symm.trans h₀) hn.length_ne_zero
      · rw [hk, List.drop_left, hm]
        simp only [← List.append_assoc name groups, ← List.length_append, List.take_left,
          List.drop_left]
    rw [CondParam.readAnnotation, ht]
    simp only [List.take_left, ha.readAfterTag]
    rfl

end AnnotationText

/-- What is left before the closing bracket of a group, behind a front that does not take it. -/
theorem exists_before_closing {g r w u rest : Text} (hg : [.char ']'] <:+ g)
    (h : g ++ r = w ++ (u ++ rest)) (hl : r.length + 1 ≤ rest.length) :
    ∃ x, g = w ++ (u ++ (x ++ [.char ']'])) ∧ rest = x ++ .char ']' :: r := by
  obtain ⟨g, rfl⟩ := hg
  have hr : .char ']' :: r <:+ w ++ (u ++ rest) := ⟨g, by simp [← h]⟩
  obtain ⟨x, rfl⟩ := List.suffix_of_suffix_length_le hr ⟨w ++ u, List.append_assoc ..⟩ hl
  refine ⟨x, List.append_cancel_right (h.trans ?_), rfl⟩
  simp

/-- Reading a tag fails at a fault, or comes behind a tag in a group. -/
theorem readTag_cases (t : Text) :
    (∃ f, readTag t = .error f) ∨
    ∃ g r w name groups rest : Text, t = g ++ r ∧ GroupRest .square true g ∧
      g ++ r = w ++ (name ++ groups ++ rest) ∧ w.isBlank = true ∧ IsTagName name ∧
      TagGroups groups ∧ tagGroupsLength (r.length + 1) (groups ++ rest) = .ok groups.length ∧
      readTag t = .ok ⟨name ++ groups, g.length, r.length + 1, rest⟩ := by
  unfold readTag
  split
  · exact .inl ⟨_, rfl⟩
  · rename_i n hr
    obtain ⟨g, r, rfl, rfl, hg⟩ := groupTail_ok hr
    simp only [hg.length_drop]
    split
    · exact .inl ⟨_, rfl⟩
    · rename_i hk
      split
      · exact .inl ⟨_, rfl⟩
      · rename_i m hm
        obtain ⟨name, body, hb, hl, hn⟩ := tagNameLength_ok hk
        rw [← hl, hb, List.drop_left] at hm
        obtain ⟨groups, rest, rfl, rfl, hgs⟩ := tagGroupsLength_ok hm
        refine .inr ⟨g, r, _, name, groups, rest, rfl, hg, ?_, Text.isBlank_takeWhile (g ++ r), hn,
          hgs, hm, ?_⟩
        · rw [List.append_assoc, ← hb, List.takeWhile_append_dropWhile]
        · rw [← hl, hb, ← List.append_assoc, ← List.length_append, List.take_left, List.drop_left]

/-- Reading an annotation fails at a fault, or comes behind a tag in a group. -/
theorem readAnnotation_cases (t : Text) :
    (∃ f, readAnnotation t = .error (.fault f)) ∨
    ∃ g r w name groups rest : Text, t = g ++ r ∧ GroupRest .square true g ∧
      g ++ r = w ++ (name ++ groups ++ rest) ∧ w.isBlank = true ∧ IsTagName name ∧
      TagGroups groups ∧ tagGroupsLength (r.length + 1) (groups ++ rest) = .ok groups.length ∧
      readAnnotation t =
        (readAfterTag (name ++ groups) ('[' :: g) (r.length + 1) rest).map (⟨·, g.length⟩) := by
  rcases readTag_cases t with ⟨f, hf⟩ |
    ⟨g, r, w, name, groups, rest, rfl, hg, ht, hw, hn, hgs, hm, he⟩
  · exact .inl ⟨f, by simp only [hf, readAnnotation]⟩
  · refine .inr ⟨g, r, w, name, groups, rest, rfl, hg, ht, hw, hn, hgs, hm, ?_⟩
    simp only [he, readAnnotation, List.take_left]

/-- **What was read is an annotation.** -/
theorem readAnnotation_ok {t : Text} {v : Read Annotation} (h : readAnnotation t = .ok v) :
    ∃ cs r, t = cs ++ r ∧ cs.length = v.length ∧ AnnotationText ('[' :: cs) v.value := by
  rcases readAnnotation_cases t with ⟨f, hf⟩ |
    ⟨g, r, w, name, groups, rest, rfl, hg, ht, hw, hn, hgs, -, he⟩
  · cases hf.symm.trans h
  · obtain ⟨a, ha, rfl⟩ := of_map_eq_ok (he.symm.trans h)
    obtain ⟨x, rfl, rfl⟩ :=
      exists_before_closing hg.closing_suffix ht (le_length_of_readAfterTag ha)
    exact ⟨_, r, rfl, rfl, .mk hw ⟨name, groups, rfl, hn, hgs⟩ ⟨_, rfl, hg⟩ (readAfterTag_ok ha)⟩

/-! ## Sequences of annotations -/

/-- Annotations with trivia behind each. -/
inductive AnnotationsText : Text → List Annotation → Prop
  | nil : AnnotationsText [] []
  | cons {s w r : Text} {a : Annotation} {as : List Annotation} :
      AnnotationText s a → Trivia true w → AnnotationsText r as →
      AnnotationsText (s ++ (w ++ r)) (a :: as)

/-- No trivia stands in front of annotations. -/
theorem AnnotationsText.triviaLength {s r : Text} {as : List Annotation} (h : AnnotationsText s as)
    (hr : triviaLength r = .ok 0) : triviaLength (s ++ r) = .ok 0 := by
  cases h with
  | nil => exact hr
  | cons hs _ _ =>
    obtain ⟨g, rfl, -⟩ := hs.isGroup
    exact triviaLength_eq_zero (c := .char '[') _ rfl (by decide)

theorem readAnnotations_cons {cs w r : Text} {a : Annotation} (h : AnnotationText ('[' :: cs) a)
    (hw : Trivia true w) (hr : triviaLength r = .ok 0) :
    readAnnotations (.char '[' :: cs ++ (w ++ r)) = (readAnnotations r).map fun rest =>
      ⟨a :: rest.value, rest.length + (cs.length + w.length + 1)⟩ := by
  rw [List.cons_append, readAnnotations, if_pos rfl, h.readAnnotation]
  simp only [List.drop_left, hw.triviaLength_eq hr]
  rw [← List.append_assoc, ← List.length_append, List.drop_left]

/-- **Annotations are read up to the variable** behind them. -/
theorem AnnotationsText.readAnnotations {s r : Text} {as : List Annotation}
    (h : AnnotationsText s as) (hr : r.head? = some (.char '$')) :
    readAnnotations (s ++ r) = .ok ⟨as, s.length⟩ := by
  obtain ⟨r, rfl⟩ : ∃ r', r = .char '$' :: r' := by
    cases r with
    | nil => cases hr
    | cons c r => cases hr; exact ⟨r, rfl⟩
  induction h with
  | nil => rw [List.nil_append, CondParam.readAnnotations, if_neg (by decide)]; rfl
  | cons hs hw hr ih =>
    have hz : CondParam.triviaLength (.char '$' :: r) = .ok 0 :=
      triviaLength_eq_zero r rfl (by decide)
    obtain ⟨g, rfl, -⟩ := hs.isGroup
    rw [List.append_assoc, List.append_assoc]
    refine (readAnnotations_cons hs hw (hr.triviaLength hz)).trans ?_
    rw [ih]
    simp [Except.map]
    omega

/-- **What was read are annotations**, if anything stands behind them. -/
theorem readAnnotations_ok {t : Text} {v : Read (List Annotation)}
    (h : readAnnotations t = .ok v) :
    ∃ s r, t = s ++ r ∧ s.length = v.length ∧ (r ≠ [] → AnnotationsText s v.value) := by
  fun_induction readAnnotations t generalizing v with
  | case1 => cases h; exact ⟨[], [], rfl, rfl, fun _ => .nil⟩
  | case2 => cases h
  | case3 => cases h
  | case4 cs first hf k hk ih =>
    obtain ⟨rest, hr, rfl⟩ := of_map_eq_ok h
    obtain ⟨g, u, rfl, hl, hg⟩ := readAnnotation_ok hf
    rw [← hl, List.drop_left] at hk
    obtain ⟨w, u, rfl, rfl, -, hw⟩ := triviaLength_ok hk
    rw [← hl, ← List.length_append, ← List.append_assoc, List.drop_left] at ih hr
    obtain ⟨s, r, rfl, hs, hs'⟩ := ih hr
    refine ⟨.char '[' :: g ++ (w ++ s), r, by simp, ?_, fun hr => .cons hg (hw ?_) (hs' hr)⟩
    · simp [← hl, ← hs]
      omega
    · exact List.append_ne_nil_of_right_ne_nil _ hr
  | case5 c cs => cases h; exact ⟨[], c :: cs, rfl, rfl, fun _ => .nil⟩

end CondParam
