import CondParam.Proofs.Trivia
import CondParam.Script.Locate

/-!
# The text before a parameter block

`IsKeyword kw`: `kw` is the keyword of a block and the blanks behind it. `AttributesText s as`: `s`
is the attributes `as` with white space and comments behind each. Where `locateFrom` finds a block
its keyword and its attributes stand before it (`locateFrom_ok`).
-/

set_option autoImplicit false

namespace CondParam

/-- `param`, in any case, and blanks. -/
def IsKeyword (kw : Text) : Prop :=
  ∃ name w : Text, kw = name ++ w ∧ name.map CodePoint.toLower = "param" ∧ w.isBlank = true

/-- The block starts behind a keyword and an opening parenthesis. -/
theorem afterKeyword?_eq_some_iff {t rest : Text} :
    afterKeyword? t = some rest ↔ ∃ kw, IsKeyword kw ∧ t = kw ++ .char '(' :: rest := by
  unfold afterKeyword?
  constructor
  · intro h
    split at h
    · rename_i hn
      split at h
      · rename_i r hd
        cases h
        refine ⟨_, ⟨t.take 5, (t.drop 5).takeWhile isSpace, rfl, hn, Text.isBlank_takeWhile _⟩, ?_⟩
        rw [List.append_assoc, ← hd, List.takeWhile_append_dropWhile, List.take_append_drop]
      · cases h
    · cases h
  · rintro ⟨_, ⟨name, w, rfl, hn, hw⟩, rfl⟩
    have hl : name.length = 5 := (List.length_map _).symm.trans (congrArg List.length hn)
    have hd : (w ++ .char '(' :: rest).dropWhile isSpace = .char '(' :: rest :=
      Text.dropWhile_isSpace_append hw (by rintro c ⟨⟩; decide)
    rw [List.append_assoc, ← hl, List.take_left, List.drop_left, if_pos hn, hd]
    rfl

theorem IsKeyword.head {kw : Text} (h : IsKeyword kw) :
    ∃ c s, kw = c :: s ∧ c.toLower = .char 'p' := by
  obtain ⟨name, w, rfl, hn, -⟩ := h
  cases name with
  | nil => cases hn
  | cons c name => exact ⟨c, name ++ w, rfl, (List.cons.inj hn).1⟩

/-- Square groups, each with white space and comments behind it. -/
inductive AttributesText : Text → List Text → Prop
  | nil : AttributesText [] []
  | cons {g w r : Text} {as : List Text} :
      IsGroup .square g → Trivia false w → AttributesText r as →
      AttributesText (g ++ (w ++ r)) (g :: as)

/-- No newline stands where an attribute or the keyword starts. -/
theorem AttributesText.head_ne_newline {s kw r : Text} {as : List Text} (h : AttributesText s as)
    (hk : IsKeyword kw) : (s ++ (kw ++ r)).head? ≠ some (.char '\n') := by
  cases h with
  | nil =>
    obtain ⟨c, s, rfl, hc⟩ := hk.head
    rintro ⟨⟩
    cases hc
  | cons hg _ _ =>
    obtain ⟨g, rfl, -⟩ := hg
    rintro ⟨⟩

/-- The text before the keyword and the attributes that stand there, `old` of them in front of the
text. -/
inductive Precedes (old : List Text) : Text → List Text → Prop
  | kept {w s : Text} {as : List Text} :
      Trivia false w → AttributesText s as → Precedes old (w ++ s) (old ++ as)
  | fresh {skipped s : Text} {as : List Text} :
      AttributesText s as → Precedes old (skipped ++ s) as

namespace Precedes

variable {old : List Text} {pre : Text} {as : List Text}

theorem skip (h : Precedes [] pre as) (s : Text) : Precedes old (s ++ pre) as := by
  cases h with
  | kept _ hs => rw [← List.append_assoc]; exact .fresh hs
  | fresh hs => rw [← List.append_assoc]; exact .fresh hs

theorem space {c : CodePoint} (h : Precedes old pre as) (hc : isSpace c = true) :
    Precedes old (c :: pre) as := by
  cases h with
  | kept hw hs => exact .kept (.space hc hw) hs
  | @fresh skipped _ _ hs => rw [← List.cons_append]; exact .fresh hs

theorem comment {s kw r : Text} (h : Precedes old pre as) (hk : IsKeyword kw)
    (hs : Lexeme true .comment s (pre ++ (kw ++ r))) : Precedes old (s ++ pre) as := by
  cases h with
  | kept hw ha =>
    rw [List.append_assoc] at hs
    have hne : ∀ {u : Text}, u ++ (kw ++ r) ≠ [] := by
      obtain ⟨c, kw, rfl, -⟩ := hk.head
      simp
    rw [← List.append_assoc]
    exact .kept (hs.trivia hw hne (ha.head_ne_newline hk)) ha
  | fresh ha => rw [← List.append_assoc]; exact .fresh ha

theorem group {g : Text} (h : Precedes (old ++ [g]) pre as) (hg : IsGroup .square g) :
    Precedes old (g ++ pre) as := by
  cases h with
  | @kept w s as hw ha =>
    rw [List.append_assoc]
    exact .kept (w := []) .nil (.cons hg hw ha)
  | fresh ha => rw [← List.append_assoc]; exact .fresh ha

/-- The attributes end the text. -/
theorem attributes (h : Precedes [] pre as) :
    ∃ skipped s, pre = skipped ++ s ∧ AttributesText s as := by
  cases h with
  | kept _ ha => exact ⟨_, _, rfl, ha⟩
  | fresh ha => exact ⟨_, _, rfl, ha⟩

end Precedes

/-- A block stands in a text: attributes, its keyword, the parenthesis and the rest. -/
def Stands (old : List Text) (t : Text) (l : Located) : Prop :=
  ∃ pre kw, t = pre ++ (kw ++ .char '(' :: l.rest) ∧ IsKeyword kw ∧ Precedes old pre l.attributes

/-- Attributes before text that is skipped are forgotten. -/
theorem Stands.skip {old : List Text} {c : CodePoint} {cs : Text} {n : Nat} {l : Located}
    (h : Stands [] (cs.drop n) l) : Stands old (c :: cs) l := by
  obtain ⟨pre, kw, he, hk, hp⟩ := h
  refine ⟨c :: cs.take n ++ pre, kw, ?_, hk, hp.skip _⟩
  rw [List.append_assoc, ← he, List.cons_append, List.take_append_drop]

/-- **A block that was found** stands behind its keyword and its attributes. -/
theorem locateFrom_ok {old : List Text} {d : Bool} {t : Text} {l : Located}
    (h : locateFrom old d t = .ok (some l)) : Stands old t l := by
  fun_induction locateFrom old d t with
  | case1 => cases h
  | case2 => cases h
  | case3 old d c cs n hn ih =>
    obtain ⟨s, r, rfl, rfl, hs⟩ := Item.next_ok hn
    rw [List.drop_left] at ih h
    obtain ⟨pre, kw, rfl, hk, hp⟩ := ih h
    exact ⟨c :: s ++ pre, kw, by simp, hk, hp.comment hk hs⟩
  | case4 old d c cs n hn ih => exact (ih h).skip
  | case5 => cases h
  | case6 old d c cs k hn n hk ih =>
    obtain ⟨s, r, -, -, hs⟩ := Item.next_ok hn
    cases hs
    obtain ⟨g, r, rfl, rfl, hg⟩ := groupTail_ok hk
    rw [List.take_left, List.drop_left] at ih h
    obtain ⟨pre, kw, rfl, hw, hp⟩ := ih h
    exact ⟨Bracket.square.opening :: g ++ pre, kw, by simp, hw, hp.group ⟨g, rfl, hg⟩⟩
  | case7 old d c cs e n hn ih => exact (ih h).skip
  | case8 old d c cs item n _ _ _ _ hn hc ih =>
    obtain ⟨pre, kw, rfl, hk, hp⟩ := ih h
    exact ⟨c :: pre, kw, rfl, hk, hp.space hc⟩
  | case9 old d c cs item n _ _ _ _ hn hc rest hr =>
    cases h
    split at hr
    · cases hr
    · obtain ⟨kw, hk, he⟩ := afterKeyword?_eq_some_iff.1 hr
      have hp : Precedes old [] (old ++ []) := .kept (w := []) .nil .nil
      rw [List.append_nil] at hp
      exact ⟨[], kw, he, hk, hp⟩
  | case10 old d c cs item n _ _ _ _ hn hc hr hw ih => exact (ih h).skip
  | case11 old d c cs item n _ _ _ _ hn hc hr hw ih => exact Stands.skip (n := 0) (ih h)

/-! ## Finding a block -/

theorem isAlpha_of_toLower {c : CodePoint} (h : c.toLower.isAlpha = true) : c.isAlpha = true := by
  cases c with
  | half n => cases h
  | char c =>
    simp only [CodePoint.toLower_char, CodePoint.isAlpha_char] at h ⊢
    by_cases hc : 'A'.val ≤ c.val ∧ c.val ≤ 'Z'.val
    · have hu : c.isUpper = true := decide_eq_true hc
      show (c.isUpper || c.isLower) = true
      rw [hu, Bool.true_or]
    · have ht : c.toLower = c := dif_neg hc
      rwa [ht] at h

section
variable {old : List Text} {d : Bool} {c : CodePoint} {r : Text}

theorem locateFrom_space (hc : isSpace c = true) :
    locateFrom old d (c :: r) = locateFrom old false r := by
  rw [locateFrom, Item.next_ordinary (notMem_lexicalMarks_of_isSpace hc)]
  simp only [hc, if_true]

theorem locateFrom_blank {w : Text} (hw : w.isBlank = true) :
    locateFrom old false (w ++ r) = locateFrom old false r := by
  induction w with
  | nil => rfl
  | cons c w ih =>
    obtain ⟨hc, hw⟩ := Text.isBlank_cons.1 hw
    rw [List.cons_append, locateFrom_space hc, ih hw]

theorem locateFrom_group {g : Text} (hg : IsGroup .square g) :
    locateFrom old d (g ++ r) = locateFrom (old ++ [g]) false r := by
  obtain ⟨g, rfl, hg⟩ := hg
  have ho : Lexeme true (.opening .square) [Bracket.square.opening] (g ++ r) := .opening
  rw [List.cons_append, locateFrom, show Item.next true _ (g ++ r) = _ from ho.next]
  simp only [hg.groupTail, List.drop_left, List.take_left]

/-- **The block starts at its keyword.** -/
theorem locateFrom_keyword {kw : Text} (hk : IsKeyword kw) :
    locateFrom old false (kw ++ .char '(' :: r) = .ok (some ⟨old, r⟩) := by
  have ha : afterKeyword? (kw ++ .char '(' :: r) = some r :=
    afterKeyword?_eq_some_iff.2 ⟨kw, hk, rfl⟩
  obtain ⟨c, s, rfl, hc⟩ := hk.head
  have hn : isNameChar c = true := isNameChar_of_isAlpha (isAlpha_of_toLower (by rw [hc]; rfl))
  rw [List.cons_append] at ha ⊢
  rw [locateFrom, Item.next_ordinary (notMem_lexicalMarks_of_isNameChar hn)]
  simp [isSpace_of_isNameChar hn, ha]

end

/-- Attributes on lines of their own are collected. -/
theorem locateFrom_attributes {old as : List Text} {w r : Text} (hw : w.isBlank = true)
    (ha : ∀ a ∈ as, IsGroup .square a) :
    locateFrom old false (.join "\n" (as.map (w ++ ·)) ++ r) = locateFrom (old ++ as) false r := by
  induction as generalizing old with
  | nil => simp [Text.join, List.intercalate]
  | cons a as ih =>
    obtain ⟨hg, has⟩ := List.forall_mem_cons.1 ha
    cases as with
    | nil =>
      rw [List.map_singleton, Text.join_singleton, List.append_assoc, locateFrom_blank hw,
        locateFrom_group hg]
    | cons a' as =>
      have he : Text.join "\n" ((a :: a' :: as).map (w ++ ·)) ++ r =
          w ++ (a ++ (.char '\n' :: (Text.join "\n" ((a' :: as).map (w ++ ·)) ++ r))) := by
        rw [List.map_cons, List.map_cons, Text.join_cons_cons]
        simp [Text.ofChars]
      rw [he, locateFrom_blank hw, locateFrom_group hg, locateFrom_space rfl, ih has]
      simp

/-! ## Words before the block -/

/-- Characters of the names of commands. -/
def isDashedChar (c : CodePoint) : Bool := isNameChar c || c == '-'

theorem isCommandChar_of_isDashedChar {c : CodePoint} (h : isDashedChar c = true) :
    isCommandChar c = true := by
  simp only [isDashedChar, Bool.or_eq_true, beq_iff_eq] at h
  rcases h with h | rfl
  · have hn := toNat_of_isNameChar h
    have hw : isWordChar c = isNameChar c := by rw [isWordChar, if_pos (by omega)]; rfl
    simp [isCommandChar, hw, h]
  · decide

theorem notMem_lexicalMarks_of_isDashedChar {c : CodePoint} (h : isDashedChar c = true) :
    c ∉ lexicalMarks :=
  notMem_lexicalMarks (p := isDashedChar) (by decide) h

theorem isSpace_of_isDashedChar {c : CodePoint} (h : isDashedChar c = true) :
    isSpace c = false := by
  simp only [isDashedChar, Bool.or_eq_true, beq_iff_eq] at h
  rcases h with h | rfl
  · exact isSpace_of_isNameChar h
  · decide

theorem isDashedChar_of_isSpace {c : CodePoint} (h : isSpace c = true) :
    isDashedChar c = false := by
  rw [← Bool.not_eq_true]
  intro hc
  rw [isSpace_of_isDashedChar hc] at h
  cases h

/-- A word of such characters, with blanks behind it, is no keyword of a block unless a parenthesis
follows. -/
theorem afterKeyword?_word {word w r : Text} {c : CodePoint}
    (hword : ∀ d ∈ word, isDashedChar d = true) (hw : w.isBlank = true) (hne : w ≠ [])
    (hs : isSpace c = false) (hc : c ≠ '(') : afterKeyword? (word ++ (w ++ c :: r)) = none := by
  rw [Option.eq_none_iff_forall_ne_some]
  intro rest h
  obtain ⟨_, ⟨name, b, rfl, hn, hb⟩, he⟩ := afterKeyword?_eq_some_iff.1 h
  have hname : ∀ d ∈ name, isDashedChar d = true := by
    intro d hd
    have hl : d.toLower ∈ ("param" : Text) := hn ▸ List.mem_map_of_mem hd
    have ha : ∀ c ∈ ("param" : Text), c.isAlpha = true := by decide
    simp [isDashedChar, isNameChar_of_isAlpha (isAlpha_of_toLower (ha _ hl))]
  have hblank : ∀ {v u : Text}, v.isBlank = true → (v ≠ [] ∨ u.head? = some (.char '(')) →
      ∀ d ∈ (v ++ u).head?, isDashedChar d = false := by
    intro v u hv hu d hd
    cases v with
    | nil =>
      rw [List.nil_append, hu.resolve_left (absurd rfl)] at hd
      cases hd
      rfl
    | cons e v =>
      cases hd
      exact isDashedChar_of_isSpace (Text.isBlank_cons.1 hv).1
  -- both words end at the first character of another kind
  have h₁ : (word ++ (w ++ c :: r)).takeWhile isDashedChar = word :=
    Text.takeWhile_append_stop hword (hblank hw (.inl hne))
  have h₂ : (name ++ (b ++ .char '(' :: rest)).takeWhile isDashedChar = name :=
    Text.takeWhile_append_stop hname (hblank hb (.inr rfl))
  rw [List.append_assoc] at he
  rw [he, h₂] at h₁
  subst h₁
  have hd := congrArg (List.dropWhile isSpace) (List.append_cancel_left he)
  rw [Text.dropWhile_isSpace_append hw (by rintro d ⟨⟩; exact hs),
    Text.dropWhile_isSpace_append hb (by rintro d ⟨⟩; decide)] at hd
  exact hc (List.cons.inj hd).1

/-- A word before the block is skipped with the blanks behind it. -/
theorem locateFrom_word {old : List Text} {word w r : Text} {c : CodePoint} (h : word ≠ [])
    (hword : ∀ d ∈ word, isDashedChar d = true) (hw : w.isBlank = true) (hne : w ≠ [])
    (hstop : ∀ d ∈ w.head?, isCommandChar d = false) (hs : isSpace c = false) (hc : c ≠ '(') :
    locateFrom old false (word ++ (w ++ c :: r)) = locateFrom [] false (c :: r) := by
  have hk := afterKeyword?_word (r := r) hword hw hne hs hc
  obtain ⟨d, word, rfl⟩ := List.exists_cons_of_ne_nil h
  obtain ⟨hd, hword⟩ := List.forall_mem_cons.1 hword
  have hstop : ∀ e ∈ (w ++ c :: r).head?, isCommandChar e = false := by
    obtain ⟨b, w, rfl⟩ := List.exists_cons_of_ne_nil hne
    exact hstop
  have ht : (word ++ (w ++ c :: r)).takeWhile isCommandChar = word :=
    Text.takeWhile_append_stop (fun e he => isCommandChar_of_isDashedChar (hword e he)) hstop
  rw [List.cons_append] at hk ⊢
  rw [locateFrom, Item.next_ordinary (notMem_lexicalMarks_of_isDashedChar hd)]
  simp only [isSpace_of_isDashedChar hd, hk, isCommandChar_of_isDashedChar hd, ht, List.drop_left]
  exact locateFrom_blank hw

theorem locateFrom_brace {old : List Text} {r : Text} :
    locateFrom old false (.char '\x7b' :: r) = locateFrom [] false r := by
  have hn : Item.next true (.char '\x7b') r = .ok (.opening .brace, 0) :=
    (Lexeme.opening : Lexeme true (.opening .brace) [.char '\x7b'] r).next
  rw [locateFrom, hn]
  have hk : afterKeyword? (.char '\x7b' :: r) = none := by
    rw [Option.eq_none_iff_forall_ne_some]
    intro rest h
    obtain ⟨kw, hk, he⟩ := afterKeyword?_eq_some_iff.1 h
    obtain ⟨c, s, rfl, hc⟩ := hk.head
    cases (List.cons.inj he).1
    cases hc
  simp only [hk]
  rfl

end CondParam
