import CondParam.Proofs.CursorRead

/-!
# The outcome of reading

A character that is not there is asked for in one case only: the text ends with an annotation whose
tag takes the closing bracket along (`readAnnotation_overrun`). Everywhere else the scanners stay in
the text, also where a cursor has gone past its end (`Cursor.scansInBounds`). With the places of
faults this gives what can come of reading any text (`Script.read_outcome`).
-/

set_option autoImplicit false

namespace CondParam

/-! ## The character past the end -/

/-- Over ordinary characters and backticks the measuring of a group comes to the text behind them,
or to a backtick at their end that takes the next character along. -/
theorem closingTail_ordinary {u : Fault} {top : Bracket} {below : List Bracket} {r : Text} :
    ∀ {s : Text}, (∀ c ∈ s, c ∉ lexicalMarks ∨ c = backtick) → ∀ fresh,
      (∃ fresh', closingTail u top below fresh (s ++ r) =
        (closingTail u top below fresh' r).map (· + s.length)) ∨
      ∃ s' fresh', s = s' ++ [backtick] ∧ closingTail u top below fresh (s ++ r) =
        (closingTail u top below fresh' (backtick :: r)).map (· + s'.length)
  | [], _, fresh => by
    refine .inl ⟨fresh, ?_⟩
    cases h : closingTail u top below fresh r <;> simp [h, Except.map]
  | [c], hs, fresh => by
    rcases hs c (.head _) with hc | rfl
    · exact .inl ⟨_, closingTail_item (.ordinary hc) rfl⟩
    · refine .inr ⟨[], fresh, rfl, ?_⟩
      cases h : closingTail u top below fresh (backtick :: r) <;> simp [h, Except.map]
  | c :: d :: s, hs, fresh => by
    obtain ⟨hc, hds⟩ := List.forall_mem_cons.1 hs
    rcases hc with hc | rfl
    · have hn : closingTail u top below fresh (c :: (d :: s ++ r)) =
          (closingTail u top below _ (d :: s ++ r)).map (· + 1) :=
        closingTail_item (s := [c]) (.ordinary hc) rfl
      rcases closingTail_ordinary hds (Item.plain c).startsToken with ⟨f, hf⟩ | ⟨s', f, he, hf⟩
      · refine .inl ⟨f, hn.trans ?_⟩
        rw [hf, map_add_map_add]
        rfl
      · refine .inr ⟨c :: s', f, by rw [he]; rfl, hn.trans ?_⟩
        rw [hf, map_add_map_add]
        rfl
    · have hn : closingTail u top below fresh (backtick :: d :: (s ++ r)) =
          (closingTail u top below _ (s ++ r)).map (· + 2) :=
        closingTail_item (s := [backtick, d]) .escape rfl
      have hs := (List.forall_mem_cons.1 hds).2
      rcases closingTail_ordinary hs (Item.escape (some d)).startsToken with
        ⟨f, hf⟩ | ⟨s', f, rfl, hf⟩
      · refine .inl ⟨f, hn.trans ?_⟩
        rw [hf, map_add_map_add]
        rfl
      · refine .inr ⟨backtick :: d :: s', f, rfl, hn.trans ?_⟩
        rw [hf, map_add_map_add]
        rfl

/-- Square groups leave a group open. -/
theorem TagGroups.closingTail {u : Fault} {b : Bracket} {s : Text} (h : TagGroups s)
    (fresh : Bool) : closingTail u b [] fresh s = .error u := by
  induction h generalizing fresh with
  | nil => rw [CondParam.closingTail]
  | cons hg _ ih =>
    obtain ⟨g, rfl, hg⟩ := hg
    rw [List.cons_append, closingTail_opening, hg.closingTail, resumeTail, ih]
    rfl

/-- A tag that takes the bracket that closes its annotation, where the text ends: the backtick at
the end of its name hides the bracket of the tag's group from the measuring of the annotation. -/
def TakesClosing (cs : Text) : Prop :=
  ∃ w name g : Text, cs = w ++ (name ++ .char '[' :: g) ∧ w.isBlank = true ∧ IsTagName name ∧
    name.getLast? = some backtick ∧ GroupRest .square true g ∧
    Bracket.square.groupTail cs = .ok cs.length

theorem TakesClosing.getLast? {cs : Text} (h : TakesClosing cs) (before : Text) :
    List.getLast? (before ++ .char '[' :: cs) = some (.char ']') := by
  obtain ⟨w, name, g, rfl, -, -, -, hg, -⟩ := h
  obtain ⟨s, rfl⟩ := hg.closing_suffix
  simp [List.getLast?_append, List.getLast?_cons, Bracket.closing]

theorem tagGroupsLength_stop {close : Nat} {t : Text} (h : t.length ≤ close) :
    tagGroupsLength close t = .ok 0 := by
  cases t with
  | nil => rw [tagGroupsLength]
  | cons c t => rw [tagGroupsLength, if_neg (fun hc => by simp at h; omega)]

theorem readAfterTag_overrun {tag extent rest : Text} {close : Nat}
    (h : readAfterTag tag extent close rest = .error .overrun) :
    rest = [] ∨ close ≤ rest.length ∧ rest.isBlank = true := by
  have ha : (if rest.length < close then rest else rest.dropWhile isSpace) = [] := by
    rcases readAfterTag_cases rfl with ⟨-, he⟩ | ⟨_, _, _, _, -, -, -, -, -, he⟩ | ⟨ha, -⟩ | ⟨f, he⟩
    · cases he.symm.trans h
    · cases he.symm.trans h
    · exact ha
    · cases he.symm.trans h
  split at ha
  · exact .inl ha
  · rename_i hl
    refine .inr ⟨Nat.not_lt.1 hl, Text.isBlank_iff.2 ?_⟩
    exact List.dropWhile_eq_nil_iff.1 ha

/-- The characters of a tag name are ordinary, backticks apart. -/
theorem IsTagName.ordinary {name : Text} (h : IsTagName name) :
    ∀ c ∈ name, c ∉ lexicalMarks ∨ c = backtick := by
  obtain ⟨c, cs, rfl, hc, hcs⟩ := h
  refine List.forall_mem_cons.2 ⟨?_, fun d hd => ?_⟩
  · exact .inl (notMem_lexicalMarks_of_isNameChar (isNameChar_of_isNameStart hc))
  · have hd := hcs d hd
    simp only [isTagChar, Bool.or_eq_true, beq_iff_eq] at hd
    rcases hd with (hd | rfl) | rfl
    · exact .inl (notMem_lexicalMarks_of_isNameChar hd)
    · exact .inl (by decide)
    · exact .inr rfl

/-- A group that is measured over a tag up to the end of the text, blanks before it, is closed by
the first bracket of the tag's groups, behind a backtick. -/
theorem groupTail_tag {w name groups : Text} {n : Nat} (hw : w.isBlank = true) (hn : IsTagName name)
    (hgs : TagGroups groups)
    (h : Bracket.square.groupTail (w ++ (name ++ groups)) = .ok n) :
    ∃ g r, groups = .char '[' :: g ++ r ∧ GroupRest .square true g ∧ TagGroups r ∧
      name.getLast? = some backtick ∧ n = (w ++ (name ++ .char '[' :: g)).length := by
  have hs : ∀ c ∈ w ++ name, c ∉ lexicalMarks ∨ c = backtick := by
    intro c hc
    rcases List.mem_append.1 hc with hc | hc
    · exact .inl (notMem_lexicalMarks_of_isSpace (Text.isBlank_iff.1 hw c hc))
    · exact hn.ordinary c hc
  rw [Bracket.groupTail, ← List.append_assoc] at h
  generalize (⟨.unclosed .square, _⟩ : Fault) = u at h
  rcases closingTail_ordinary hs true with ⟨f, hf⟩ | ⟨s, f, he, hf⟩
  · rw [hf, hgs.closingTail] at h
    cases h
  · rw [hf] at h
    have hlast : name.getLast? = some backtick := by
      have := congrArg List.getLast? he
      obtain ⟨c, cs, rfl, -⟩ := hn
      simpa [List.getLast?_append] using this
    cases hgs with
    | nil =>
      have hlone : CondParam.closingTail u .square [] f [backtick] = _ :=
        closingTail_item (s := [backtick]) (r := []) .lone rfl
      rw [hlone, CondParam.closingTail] at h
      cases h
    | cons hg hr =>
      obtain ⟨g, rfl, hg⟩ := hg
      rename_i r
      have hescape : CondParam.closingTail u .square [] f (backtick :: .char '[' :: (g ++ r)) =
          (CondParam.closingTail u .square [] true (g ++ r)).map (· + 2) :=
        closingTail_item (s := [backtick, .char '[']) .escape rfl
      refine ⟨g, r, rfl, hg, hr, hlast, ?_⟩
      change (CondParam.closingTail u .square [] f
        (backtick :: .char '[' :: (g ++ r))).map _ = _ at h
      rw [hescape, hg.closingTail, resumeTail] at h
      have hl := congrArg List.length he
      simp only [List.length_append, List.length_cons, List.length_nil] at hl ⊢
      simp only [Except.map, Except.ok.injEq] at h
      omega

/-- A tag that is read up to the end of the text, over the bracket that closes its annotation. -/
theorem takesClosing_of_groups {g r w name groups : Text} (hg : GroupRest .square true g)
    (h : g ++ r = w ++ (name ++ groups)) (hw : w.isBlank = true) (hn : IsTagName name)
    (hgs : TagGroups groups) (hl : tagGroupsLength (r.length + 1) groups = .ok groups.length) :
    TakesClosing (g ++ r) := by
  have hm : Bracket.square.groupTail (w ++ (name ++ groups)) = .ok g.length := h ▸ hg.groupTail r
  obtain ⟨g', r', rfl, hg', hr', hlast, hlen⟩ := groupTail_tag hw hn hgs hm
  obtain ⟨rfl, rfl⟩ : g = w ++ (name ++ .char '[' :: g') ∧ r = r' :=
    List.append_inj (h.trans (by simp)) hlen
  have hr : r = [] := by
    have hpos := List.length_pos_iff.2 hg'.ne_nil
    rw [List.cons_append, tagGroupsLength, if_pos ⟨rfl, by simp; omega⟩, hg'.groupTail] at hl
    simp only [List.drop_left, tagGroupsLength_stop (Nat.le_succ _), Except.map] at hl
    have := Except.ok.inj hl
    simp only [List.length_cons, List.length_append] at this
    exact List.length_eq_zero_iff.1 (by omega)
  subst hr
  rw [List.append_nil]
  refine ⟨w, name, g', rfl, hw, hn, hlast, hg', ?_⟩
  simpa using hg.groupTail []

/-- **The only overrun.** -/
theorem readAnnotation_overrun {cs : Text} (h : readAnnotation cs = .error .overrun) :
    TakesClosing cs := by
  rcases readAnnotation_cases cs with ⟨f, hf⟩ |
    ⟨g, r, w, name, groups, rest, rfl, hg, ht, hw, hn, hgs, hm, he⟩
  · cases hf.symm.trans h
  · rcases readAfterTag_overrun (error_of_map (he.symm.trans h)) with rfl | ⟨hlen, hblank⟩
    · rw [List.append_nil] at ht hm
      exact takesClosing_of_groups hg ht hw hn hgs hm
    · -- the closing bracket is left, and it is no blank
      obtain ⟨x, -, rfl⟩ := exists_before_closing hg.closing_suffix ht hlen
      have := Text.isBlank_iff.1 hblank (.char ']') (by simp)
      exact absurd this (by decide)

/-- A tag that takes the closing bracket of its annotation has nothing behind it. -/
theorem TakesClosing.readAnnotation {cs : Text} (h : TakesClosing cs) :
    readAnnotation cs = .error .overrun := by
  obtain ⟨w, name, g, rfl, hw, hn, -, hg, hm⟩ := h
  have hb := hn.dropWhile_isSpace hw (.char '[' :: g)
  have hk : tagNameLength (name ++ .char '[' :: g) = name.length :=
    hn.tagNameLength fun c hc => by cases hc; rfl
  have hgs : tagGroupsLength 1 (.char '[' :: g) = .ok (g.length + 1) := by
    have hpos := List.length_pos_iff.2 hg.ne_nil
    have hgt := hg.groupTail []
    rw [List.append_nil] at hgt
    rw [tagGroupsLength, if_pos ⟨rfl, by omega⟩, hgt]
    simp [tagGroupsLength, Except.map]
  have hclose : ((w ++ (name ++ .char '[' :: g)).drop
      ((w ++ (name ++ .char '[' :: g)).length - 1)).length = 1 := by simp; omega
  have ht : readTag (w ++ (name ++ .char '[' :: g)) =
      .ok ⟨name ++ .char '[' :: g, (w ++ (name ++ .char '[' :: g)).length, 1, []⟩ := by
    rw [readTag, hm]
    simp only [hb, hclose]
    split
    · rename_i h0
      exact absurd (hk.symm.trans h0) hn.length_ne_zero
    · rw [hk, List.drop_left, hgs]
      simp only
      rw [show name.length + (g.length + 1) = (name ++ .char '[' :: g).length by simp,
        List.drop_length, List.take_length]
  rw [CondParam.readAnnotation, ht]
  rfl

/-! ## Scanners stay in the text -/

namespace Cursor

/-- No character is asked for that is not there: scanning gives a result, or stops at a fault in the
text. -/
def InBounds {α : Type} (t : Text) (x : Scan α) : Prop :=
  ∀ s, x = .error s → ∃ reason offset, s = .fault reason offset ∧ offset ≤ t.length

section
variable {α β : Type} {t : Text}

theorem inBounds_ok (a : α) : InBounds t (.ok a) := fun _ h => by cases h

theorem inBounds_fault (f : Fault) : InBounds t (.error (f.stop t) : Scan α) := by
  rintro s hs
  cases hs
  exact ⟨f.reason, t.length - f.left, rfl, Nat.sub_le _ _⟩

theorem inBounds_mapError (x : Except Fault α) : InBounds t (x.mapError (Fault.stop t)) := by
  cases x with
  | ok a => exact inBounds_ok a
  | error f => exact inBounds_fault f

theorem inBounds_ofTail (i : Nat) (x : Except Fault Nat) : InBounds t (ofTail t i x) := by
  cases x with
  | ok n => exact inBounds_ok (i + n)
  | error f => exact inBounds_fault f

theorem Agrees.inBounds {R : α → β → Prop} {x : Except Fault α} {y : Scan β}
    (h : Agrees (Fault.stop t) R x y) : InBounds t y := by
  cases h with
  | ok _ => exact inBounds_ok _
  | error f => exact inBounds_fault f

end

/-- Every scanner stays in `t`, wherever it is sent in the course of reading. Trivia and expressions
may be asked for past the end; other scanners need the character they start with. The one exception
is the annotation whose tag takes the closing bracket: there the character right behind the text is
asked for. -/
structure ScansInBounds (t : Text) : Prop where
  peek : ∀ i, InBounds t (peek t i)
  opensString : ∀ {i c}, charAt t i = .ok c → InBounds t (opensString t i c)
  opensLine : ∀ {i c}, charAt t i = .ok c → InBounds t (opensLine t i c)
  string : ∀ {i c}, charAt t i = .ok c → Cursor.opensString t i c = .ok true →
    InBounds t (stringEnd t i)
  comment : ∀ {i}, i ≤ t.length → InBounds t (commentEnd t i)
  group : ∀ {i b}, charAt t i = .ok (Bracket.opening b) → InBounds t (groupEnd t i)
  trivia : ∀ i, InBounds t (skipTrivia t i)
  spaces : ∀ {limit}, limit ≤ t.length → ∀ i, InBounds t (skipSpaces t limit i)
  block : InBounds t (locate t)
  variableName : ∀ {i}, i ≤ t.length → InBounds t (variableAt t i)
  expression : ∀ i, InBounds t (expressionAt t i)
  tag : ∀ {close}, close ≤ t.length → ∀ i, InBounds t ((tagLoop t close).run () i)
  arguments : ∀ {i e}, charAt t i = .ok '(' → groupEnd t i = .ok e →
    InBounds t (argumentsAt t (i + 1) (e - 1))
  annotation : ∀ {i}, charAt t i = .ok '[' → ¬ TakesClosing (t.drop (i + 1)) →
    InBounds t (annotationAt t i)
  overrun : ∀ {i}, charAt t i = .ok '[' → TakesClosing (t.drop (i + 1)) →
    annotationAt t i = .error (.outside t.length)
  declaration : ∀ {i}, i ≤ t.length → (∀ cs, .char '[' :: cs <:+ t.drop i → ¬ TakesClosing cs) →
    InBounds t (parameterAt t i)

theorem inBounds_commentEnd {t : Text} {i : Nat} (h : i ≤ t.length) :
    InBounds t (commentEnd t i) := by
  unfold commentEnd
  split
  · exact inBounds_ok _
  · rintro s hs
    cases hs
    exact ⟨_, i, rfl, h⟩

theorem inBounds_argumentsAt {t : Text} {i e : Nat} (hc : charAt t i = .ok '(')
    (he : groupEnd t i = .ok e) : InBounds t (argumentsAt t (i + 1) (e - 1)) := by
  have hd := (drop_of_charAt hc).2
  rw [groupEnd_eq (b := .paren) hd] at he
  cases hg : Bracket.paren.groupTail (t.drop (i + 1)) with
  | error f =>
    rw [hg] at he
    cases he
  | ok n =>
    rw [hg] at he
    obtain rfl : i + 1 + n = e := Except.ok.inj he
    rw [show i + 1 + n - 1 = i + n by omega, argumentsAt_eq hd hg]
    exact inBounds_mapError _

theorem inBounds_annotationAt {t : Text} {i : Nat} (hc : charAt t i = .ok '[')
    (h : ¬ TakesClosing (t.drop (i + 1))) : InBounds t (annotationAt t i) := by
  rw [annotationAt_eq (drop_of_charAt hc).2]
  cases ha : readAnnotation (t.drop (i + 1)) with
  | ok v => exact inBounds_ok _
  | error e =>
    cases e with
    | fault f => exact inBounds_fault f
    | overrun => exact absurd (readAnnotation_overrun ha) h

theorem inBounds_parameterAt {t : Text} {i : Nat} (hi : i ≤ t.length)
    (h : ∀ cs, .char '[' :: cs <:+ t.drop i → ¬ TakesClosing cs) :
    InBounds t (parameterAt t i) := by
  have hp := parameterAt_agrees hi
  generalize hx : readParameter (t.drop i) = x at hp
  generalize parameterAt t i = y at hp
  cases hp with
  | ok _ => exact inBounds_ok _
  | error e =>
    cases e with
    | fault f => exact inBounds_fault f
    | overrun =>
      obtain ⟨cs, hcs, ho⟩ := readParameter_error hx
      exact absurd (readAnnotation_overrun ho) (h cs hcs)

/-- **Scanners stay in the text.** -/
theorem scansInBounds (t : Text) : ScansInBounds t where
  peek i := by
    rw [peek_eq]
    exact inBounds_ok _
  opensString hc := by
    rw [opensString_eq (drop_of_charAt hc).2]
    exact inBounds_ok _
  opensLine hc := by
    rw [opensLine_eq (drop_of_charAt hc).2 fun _ => rfl]
    exact inBounds_ok _
  string hc ho := by
    have hd := (drop_of_charAt hc).2
    rw [opensString_eq hd] at ho
    obtain ⟨r, hr⟩ := Option.isSome_iff_exists.1 (Except.ok.inj ho)
    rw [stringEnd_eq hd hr]
    exact inBounds_ofTail _ _
  comment := inBounds_commentEnd
  group hc := by
    rw [groupEnd_eq (drop_of_charAt hc).2]
    exact inBounds_ofTail _ _
  trivia i := by
    rw [skipTrivia_eq]
    exact inBounds_ofTail _ _
  spaces hl i := by
    rw [skipSpaces_eq hl]
    exact inBounds_ok _
  block := by
    rw [locate_eq]
    exact inBounds_mapError _
  variableName hi := by
    rw [variableAt_eq hi]
    exact inBounds_mapError _
  expression i := (expressionAt_agrees fun _ => rfl).inBounds
  tag hc i := by
    rw [tagLoop_eq hc rfl]
    exact inBounds_ofTail _ _
  arguments := inBounds_argumentsAt
  annotation := inBounds_annotationAt
  overrun hc h := by
    rw [annotationAt_eq (drop_of_charAt hc).2, TakesClosing.readAnnotation h]
    rfl
  declaration := inBounds_parameterAt

end Cursor

/-! ## Outcomes -/

/-- **What comes of reading a text**, by indices: a script, a fault with its place in the text, or,
where the text ends with a tag that takes the closing bracket, a character that is not there. No
scanner asks for another one. -/
theorem Script.read_outcome (t : Text) :
    Cursor.read t = (Script.read t).mapError (ReadError.stop t) ∧
    Cursor.ScansInBounds t ∧
    ((∃ script, Cursor.read t = .ok script) ∨
      (∃ f before after, Script.read t = .error (.fault f) ∧ t = before ++ after ∧
        Cursor.read t = .error (.fault f.reason before.length) ∧
        (f.position t).LiesBetween before after) ∨
      Cursor.read t = .error (.outside t.length) ∧ ∃ before cs, t = before ++ .char '[' :: cs ∧
        Cursor.annotationAt t before.length = .error (.outside t.length) ∧ TakesClosing cs ∧
        t.getLast? = some (.char ']')) := by
  refine ⟨Cursor.read_eq t, Cursor.scansInBounds t, ?_⟩
  rw [Cursor.read_eq]
  cases h : Script.read t with
  | ok script => exact .inl ⟨script, rfl⟩
  | error e =>
    refine .inr ?_
    have hl := Script.read_error h
    cases e with
    | fault f =>
      obtain ⟨before, after, ht, hf, hp⟩ := Fault.position_liesBetween hl
      have hb : t.length - f.left = before.length := by
        rw [ht, List.length_append]
        omega
      refine .inl ⟨f, before, after, rfl, ht, ?_, hp⟩
      exact congrArg (fun o => Except.error (Cursor.Stop.fault f.reason o)) hb
    | overrun =>
      obtain ⟨cs, ⟨before, hcs⟩, ho⟩ := hl
      have hc := readAnnotation_overrun ho
      have hd : t.drop before.length = .char '[' :: cs := by rw [← hcs, List.drop_left]
      refine .inr ⟨rfl, before, cs, hcs.symm, ?_, hc, hcs ▸ hc.getLast? before⟩
      rw [Cursor.annotationAt_eq hd, ho]
      rfl

/-- The last does come about. -/
example : Cursor.read "param([a`[b]" = .error (.outside 12) :=
  (Cursor.read_eq _).trans (by decide +kernel)

end CondParam
