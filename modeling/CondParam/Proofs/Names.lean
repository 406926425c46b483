import CondParam.Text.Name
import Mathlib.Data.List.TakeWhile

/-!
# Blanks, identifiers and pieces of a text

Name characters are no blanks, and a run of either ends where the first character of another kind
stands: `dropWhile_isSpace_append` takes a blank front off a text, `exists_strip` and `strip_strip`
say what is left of it without the blanks at its ends, `identifierLength_append` and
`identifierLength_ok` measure the identifier at its front. The last section is about the pieces
between the occurrences of a character.
-/

set_option autoImplicit false

namespace CondParam

theorem toNat_of_isSpace {c : CodePoint} (h : isSpace c = true) : c.toNat ≤ 32 ∨ 133 ≤ c.toNat := by
  simp [isSpace] at h
  omega

theorem toNat_of_isAlphanum {c : Char} (h : c.isAlphanum = true) :
    48 ≤ c.toNat ∧ c.toNat ≤ 122 := by
  change (decide ('A'.val ≤ c.val ∧ c.val ≤ 'Z'.val) ||
    (decide ('a'.val ≤ c.val) && decide (c.val ≤ 'z'.val)) ||
    (decide ('0'.val ≤ c.val) && decide (c.val ≤ '9'.val))) = true at h
  simp [UInt32.le_iff_toNat_le] at h
  omega

theorem toNat_of_isNameChar {c : CodePoint} (h : isNameChar c = true) :
    48 ≤ c.toNat ∧ c.toNat ≤ 122 := by
  cases c with
  | half n => cases h
  | char c =>
    simp only [isNameChar, CodePoint.isAlphanum_char, Bool.or_eq_true, beq_iff_eq] at h
    rcases h with h | h
    · exact toNat_of_isAlphanum h
    · cases h
      decide

theorem isSpace_of_isNameChar {c : CodePoint} (h : isNameChar c = true) : isSpace c = false := by
  rw [← Bool.not_eq_true]
  intro hc
  have hs := toNat_of_isSpace hc
  have hn := toNat_of_isNameChar h
  omega

theorem isNameChar_of_isSpace {c : CodePoint} (h : isSpace c = true) : isNameChar c = false := by
  rw [← Bool.not_eq_true]
  intro hc
  rw [isSpace_of_isNameChar hc] at h
  cases h

theorem isNameChar_of_isNameStart {c : CodePoint} (h : isNameStart c = true) :
    isNameChar c = true := by
  simp only [isNameStart, isNameChar, CodePoint.isAlpha, CodePoint.isAlphanum,
    Bool.or_eq_true] at h ⊢
  refine h.imp (fun h => ?_) id
  cases c with
  | char c =>
    simp only [CodePoint.char?, Option.any_some, Char.isAlphanum, Bool.or_eq_true] at h ⊢
    exact .inl h
  | half n => cases h

theorem isNameChar_of_isAlpha {c : CodePoint} (h : c.isAlpha = true) : isNameChar c = true :=
  isNameChar_of_isNameStart (by simp [isNameStart, h])

namespace Text

theorem takeWhile_append_stop {p : CodePoint → Bool} {s r : Text} (hs : ∀ c ∈ s, p c = true)
    (hr : ∀ c ∈ r.head?, p c = false) : (s ++ r).takeWhile p = s := by
  rw [List.takeWhile_append_of_pos hs]
  cases r with
  | nil => simp
  | cons c r => simp [hr c rfl]

theorem drop_takeWhile (p : CodePoint → Bool) (t : Text) :
    t.drop (t.takeWhile p).length = t.dropWhile p := by
  induction t with
  | nil => rfl
  | cons c t ih => cases hc : p c <;> simp [hc, ih]

theorem join_singleton (sep s : Text) : join sep [s] = s := by
  simp [join, List.intercalate]

theorem join_cons_cons (sep s s' : Text) (ss : List Text) :
    join sep (s :: s' :: ss) = s ++ (sep ++ join sep (s' :: ss)) := by
  simp [join, List.intercalate]

theorem isBlank_iff {t : Text} : t.isBlank = true ↔ ∀ c ∈ t, isSpace c = true := by
  simp [isBlank]

@[simp] theorem isBlank_cons {c : CodePoint} {t : Text} :
    isBlank (c :: t) = true ↔ isSpace c = true ∧ isBlank t = true := by
  simp [isBlank]

theorem isBlank_eq_false {c : CodePoint} {t : Text} (hc : c ∈ t) (hs : isSpace c = false) :
    t.isBlank = false := by
  rw [← Bool.not_eq_true]
  intro h
  rw [isBlank_iff.1 h c hc] at hs
  cases hs

theorem isBlank_takeWhile (t : Text) : isBlank (t.takeWhile isSpace) = true :=
  isBlank_iff.2 fun _ h => List.mem_takeWhile_imp h

/-- A blank front is skipped, and nothing more. -/
theorem dropWhile_isSpace_append {w r : Text} (hw : w.isBlank = true)
    (hr : ∀ c ∈ r.head?, isSpace c = false) : (w ++ r).dropWhile isSpace = r := by
  rw [List.dropWhile_append_of_pos (isBlank_iff.1 hw)]
  cases r with
  | nil => rfl
  | cons c r => simp [hr c rfl]

theorem dropWhile_isSpace_eq_self_iff {t : Text} :
    t.dropWhile isSpace = t ↔ ∀ c ∈ t.head?, isSpace c = false := by
  cases t with
  | nil => simp
  | cons c t =>
    constructor
    · rintro h d ⟨⟩
      rw [← Bool.not_eq_true]
      intro hc
      have hl := (List.dropWhile_suffix isSpace (l := t)).length_le
      rw [List.dropWhile_cons, if_pos hc] at h
      rw [h, List.length_cons] at hl
      omega
    · intro h
      rw [List.dropWhile_cons, if_neg (by simp [h c rfl])]

theorem stripEnd_eq_self_iff {t : Text} :
    t.stripEnd = t ↔ ∀ c ∈ t.getLast?, isSpace c = false := by
  rw [stripEnd, ← List.head?_reverse, ← dropWhile_isSpace_eq_self_iff]
  exact ⟨fun h => by rw [← List.reverse_eq_iff]; exact h, fun h => by rw [h, List.reverse_reverse]⟩

theorem stripEnd_append (t : Text) : t.stripEnd ++ (t.reverse.takeWhile isSpace).reverse = t := by
  rw [stripEnd, ← List.reverse_append, List.takeWhile_append_dropWhile, List.reverse_reverse]

theorem length_stripEnd_le (t : Text) : t.stripEnd.length ≤ t.length := by
  have hl := (List.dropWhile_suffix isSpace (l := t.reverse)).length_le
  rw [List.length_reverse] at hl
  rwa [stripEnd, List.length_reverse]

/-- A text keeps what `strip` takes off if no blank stands at its ends. -/
theorem strip_eq_self_iff {t : Text} :
    t.strip = t ↔
      (∀ c ∈ t.head?, isSpace c = false) ∧ ∀ c ∈ t.getLast?, isSpace c = false := by
  rw [← dropWhile_isSpace_eq_self_iff, ← stripEnd_eq_self_iff, strip]
  constructor
  · intro h
    have hs := List.dropWhile_suffix isSpace (l := t)
    have hd : t.dropWhile isSpace = t := by
      refine hs.eq_of_length (Nat.le_antisymm hs.length_le ?_)
      calc t.length = (stripEnd (t.dropWhile isSpace)).length := by rw [h]
        _ ≤ (t.dropWhile isSpace).length := length_stripEnd_le _
    rw [hd] at h
    exact ⟨hd, h⟩
  · rintro ⟨hd, he⟩
    rw [hd, he]

theorem strip_append_of_isBlank {w t : Text} (hw : w.isBlank = true) :
    strip (w ++ t) = strip t := by
  rw [strip, List.dropWhile_append_of_pos (isBlank_iff.1 hw), strip]

/-- `strip` takes off white space at the two ends. -/
theorem exists_strip (t : Text) :
    ∃ w w' : Text, w.isBlank = true ∧ w'.isBlank = true ∧ t = w ++ (t.strip ++ w') := by
  refine ⟨t.takeWhile isSpace, _, isBlank_takeWhile t, ?_,
    (List.takeWhile_append_dropWhile (p := isSpace)).symm.trans
      (congrArg _ (stripEnd_append _).symm)⟩
  exact isBlank_iff.2 fun c hc => List.mem_takeWhile_imp (List.mem_reverse.1 hc)

theorem head?_dropWhile_isSpace (t : Text) :
    ∀ c ∈ (t.dropWhile isSpace).head?, isSpace c = false := by
  intro c hc
  have h := List.head?_dropWhile_not isSpace t
  rw [Option.mem_def.1 hc] at h
  exact h

/-- No blank is left at the ends of a stripped text. -/
theorem strip_strip (t : Text) : t.strip.strip = t.strip := by
  refine strip_eq_self_iff.2 ⟨fun c hc => ?_, fun c hc => ?_⟩
  · have hc : (stripEnd (t.dropWhile isSpace)).head? = some c := hc
    refine head?_dropWhile_isSpace t c ?_
    rw [← stripEnd_append (t.dropWhile isSpace), List.head?_append, hc]
    rfl
  · rw [strip, stripEnd, List.getLast?_reverse] at hc
    exact head?_dropWhile_isSpace _ c hc

theorem strip_eq_nil_iff {t : Text} : t.strip = [] ↔ t.isBlank = true := by
  constructor
  · intro h
    obtain ⟨w, w', hw, hw', he⟩ := t.exists_strip
    rw [he, h, List.nil_append, isBlank_iff]
    intro c hc
    rcases List.mem_append.1 hc with hc | hc
    · exact isBlank_iff.1 hw c hc
    · exact isBlank_iff.1 hw' c hc
  · intro h
    exact (congrArg strip (List.append_nil t).symm).trans (strip_append_of_isBlank h)

theorem isBlank_strip {t : Text} (h : t.strip ≠ []) : t.strip.isBlank = false := by
  rw [← Bool.not_eq_true, ← strip_eq_nil_iff, strip_strip]
  exact h

/-- Blanks around a text that has none at its ends are all that `strip` takes off. -/
theorem strip_padded {w t w' : Text} (hw : w.isBlank = true) (hw' : w'.isBlank = true)
    (ht : t.strip = t) : strip (w ++ (t ++ w')) = t := by
  rw [strip_append_of_isBlank hw]
  cases t with
  | nil => exact strip_eq_nil_iff.2 hw'
  | cons c s =>
    obtain ⟨hc, he⟩ := strip_eq_self_iff.1 ht
    have hd : (c :: s ++ w').dropWhile isSpace = c :: s ++ w' :=
      dropWhile_isSpace_eq_self_iff.2 hc
    have hr : ∀ d ∈ w'.reverse, isSpace d = true :=
      fun d hd => isBlank_iff.1 hw' d (List.mem_reverse.1 hd)
    rw [strip, hd, stripEnd, List.reverse_append, List.dropWhile_append_of_pos hr]
    exact stripEnd_eq_self_iff.2 he

theorem isIdentifier_cons {c : CodePoint} {s : Text} :
    isIdentifier (c :: s) = true ↔ isNameStart c = true ∧ ∀ d ∈ s, isNameChar d = true := by
  simp [isIdentifier]

/-- An identifier has a first character, and name characters behind it. -/
theorem exists_of_isIdentifier {t : Text} (h : t.isIdentifier = true) :
    ∃ c s, t = c :: s ∧ isNameStart c = true ∧ ∀ d ∈ s, isNameChar d = true := by
  cases t with
  | nil => cases h
  | cons c s => exact ⟨c, s, rfl, isIdentifier_cons.1 h⟩

theorem isNameChar_of_isIdentifier {t : Text} (h : t.isIdentifier = true) :
    ∀ c ∈ t, isNameChar c = true := by
  obtain ⟨c, s, rfl, hc, hs⟩ := exists_of_isIdentifier h
  intro d hd
  rcases List.mem_cons.1 hd with rfl | hd
  · exact isNameChar_of_isNameStart hc
  · exact hs d hd

theorem identifierLength_append {name r : Text} (h : name.isIdentifier = true)
    (hr : ∀ c ∈ r.head?, isNameChar c = false) : (name ++ r).identifierLength = name.length := by
  obtain ⟨c, s, rfl, hc, hs⟩ := exists_of_isIdentifier h
  rw [List.cons_append, identifierLength, if_pos hc, takeWhile_append_stop hs hr, List.length_cons]

theorem identifierLength_ok {t : Text} (h : t.identifierLength ≠ 0) :
    ∃ name r, t = name ++ r ∧ name.length = t.identifierLength ∧ name.isIdentifier = true ∧
      ∀ c ∈ r.head?, isNameChar c = false := by
  cases t with
  | nil => exact absurd rfl h
  | cons c s =>
    simp only [identifierLength] at h ⊢
    split at h
    · rename_i hc
      refine ⟨c :: s.takeWhile isNameChar, s.dropWhile isNameChar, ?_, ?_, ?_, ?_⟩
      · rw [List.cons_append, List.takeWhile_append_dropWhile]
      · rw [if_pos hc, List.length_cons]
      · exact isIdentifier_cons.2 ⟨hc, fun d hd => List.mem_takeWhile_imp hd⟩
      · intro d hd
        have := List.head?_dropWhile_not isNameChar s
        rw [hd] at this
        simpa using this
    · exact absurd rfl h

/-! ## Pieces -/

theorem length_splitOn (sep : CodePoint) (t : Text) : (splitOn sep t).length = t.count sep + 1 := by
  induction t with
  | nil => rfl
  | cons c t ih =>
    by_cases hc : c = sep
    · rw [splitOn, if_pos hc, List.length_cons, ih, hc, List.count_cons_self]
    · obtain ⟨first, rest, hs⟩ := List.exists_cons_of_ne_nil (splitOn_ne_nil sep t)
      rw [hs] at ih
      rw [splitOn, if_neg hc, hs, List.count_cons_of_ne hc]
      exact ih

/-- A separator ends the pieces of the text before it. -/
theorem splitOn_append_cons (sep : CodePoint) (s t : Text) :
    splitOn sep (s ++ sep :: t) = splitOn sep s ++ splitOn sep t := by
  induction s with
  | nil => rw [List.nil_append, splitOn, splitOn, if_pos rfl]; rfl
  | cons c s ih =>
    obtain ⟨first, rest, hs⟩ := List.exists_cons_of_ne_nil (splitOn_ne_nil sep s)
    rw [List.cons_append, splitOn, splitOn, ih, hs]
    split <;> rfl

theorem splitOn_of_notMem {sep : CodePoint} {t : Text} (h : sep ∉ t) : splitOn sep t = [t] := by
  induction t with
  | nil => rfl
  | cons c t ih =>
    obtain ⟨hc, ht⟩ := not_or.1 (mt List.mem_cons.2 h)
    rw [splitOn, if_neg (Ne.symm hc), ih ht]

theorem head?_splitOn (sep : CodePoint) (t : Text) :
    (splitOn sep t).head? = some (t.takeWhile (· ≠ sep)) := by
  induction t with
  | nil => rfl
  | cons c t ih =>
    obtain ⟨first, rest, hs⟩ := List.exists_cons_of_ne_nil (splitOn_ne_nil sep t)
    rw [hs, List.head?_cons, Option.some_inj] at ih
    rw [splitOn, hs, ih]
    by_cases hc : c = sep
    · rw [if_pos hc, List.takeWhile_cons_of_neg (by simpa using hc)]
      rfl
    · rw [if_neg hc, List.takeWhile_cons_of_pos (by simpa using hc)]
      rfl

/-- A character of a text stands in one of its pieces or is the mark between them. -/
theorem mem_splitOn (sep : CodePoint) {c : CodePoint} {t : Text} (h : c ∈ t) :
    c = sep ∨ ∃ piece ∈ splitOn sep t, c ∈ piece := by
  induction t with
  | nil => cases h
  | cons d t ih =>
    by_cases hd : d = sep
    · rw [splitOn, if_pos hd]
      rcases List.mem_cons.1 h with rfl | h
      · exact .inl hd
      · obtain hc | ⟨piece, hp, hc⟩ := ih h
        · exact .inl hc
        · exact .inr ⟨piece, .tail _ hp, hc⟩
    · obtain ⟨first, rest, hs⟩ := List.exists_cons_of_ne_nil (splitOn_ne_nil sep t)
      rw [hs] at ih
      rw [splitOn, if_neg hd, hs]
      rcases List.mem_cons.1 h with rfl | h
      · exact .inr ⟨c :: first, .head _, .head _⟩
      · obtain hc | ⟨piece, hp, hc⟩ := ih h
        · exact .inl hc
        · rcases List.mem_cons.1 hp with rfl | hp
          · exact .inr ⟨d :: piece, .head _, .tail _ hc⟩
          · exact .inr ⟨piece, .tail _ hp, hc⟩

end Text

end CondParam
