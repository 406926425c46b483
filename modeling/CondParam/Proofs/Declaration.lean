import CondParam.Proofs.Annotation
import CondParam.Proofs.Expression
import CondParam.Proofs.Variable
import CondParam.Script.Declaration

/-!
# The grammar of declarations

`ParameterText s p`: `s` declares the parameter `p`: its annotations, its variable and its default.
`readParameter` reads such a text where blanks and then a comma or a closing parenthesis follow
(`ParameterText.readParameter`), and nothing else (`readParameter_ok`). `DeclarationsText` are the
declarations of a block with the trivia and commas between them.
-/

set_option autoImplicit false

namespace CondParam

/-! ## Defaults -/

/-- What stands behind the variable: nothing, or an `=` and the default. -/
inductive DefaultText : Text → Option Text → Prop
  | absent : DefaultText [] none
  | present {w w' e : Text} : Trivia true w → Trivia true w' → ExpressionText true e →
      triviaLength e = .ok 0 → DefaultText (w ++ .char '=' :: (w' ++ e)) (some e)

theorem drop_of_eq_append {t s r : Text} {n : Nat} (h : t = s ++ r) (hn : n = s.length) :
    t.drop n = r := by
  rw [h, hn, List.drop_left]

theorem take_of_eq_append {t s r : Text} {n : Nat} (h : t = s ++ r) (hn : n = s.length) :
    t.take n = s := by
  rw [h, hn, List.take_left]

/-- No trivia stands at a comma or a closing parenthesis. -/
theorem triviaLength_stop {r : Text}
    (hr : r.head? = some (.char ',') ∨ r.head? = some (.char ')')) : triviaLength r = .ok 0 := by
  cases r with
  | nil => simp at hr
  | cons c r =>
    have hc : c = ',' ∨ c = ')' := by simpa using hr
    rcases hc with rfl | rfl <;> exact triviaLength_eq_zero r rfl (by decide)

/-- A default is read up to the comma or the parenthesis behind it. -/
theorem DefaultText.readDefault {x s w r name : Text} {d : Option Text} {as : List Annotation}
    (h : DefaultText x d) (hw : w.isBlank = true)
    (hr : r.head? = some (.char ',') ∨ r.head? = some (.char ')')) :
    readDefault (s ++ (x ++ (w ++ r))) s.length name as =
      .ok ⟨{ name, annotations := as, default := d, extent := s ++ x },
        (s ++ x).length + w.length⟩ := by
  have hwr : triviaLength (w ++ r) = .ok w.length :=
    (Trivia.of_isBlank (b := true) hw).triviaLength_eq (triviaLength_stop hr)
  cases h with
  | absent =>
    have hd : (s ++ (w ++ r)).drop (s.length + w.length) = r :=
      drop_of_eq_append (s := s ++ w) (by simp) (by simp)
    have hne : ¬ r.head? = some (.char '=') := by
      rintro he
      rw [he] at hr
      revert hr
      decide
    simp only [CondParam.readDefault, List.nil_append, List.append_nil, List.drop_left, hwr, hd,
      if_neg hne, List.take_left]
  | @present w₁ w₂ e hw₁ hw₂ he h₀ =>
    have hi := inert_blank hw hr
    have hz : triviaLength (.char '=' :: (w₂ ++ (e ++ (w ++ r)))) = .ok 0 :=
      triviaLength_eq_zero _ rfl (by decide)
    have hreach := he.expressionReach hi (expressionReach_blank hw hr)
    have hl : e.length ≠ 0 := fun h => he.ne_nil (List.length_eq_zero_iff.1 h)
    generalize ht : s ++ (w₁ ++ .char '=' :: (w₂ ++ e) ++ (w ++ r)) = t
    have ht : t = s ++ (w₁ ++ .char '=' :: (w₂ ++ (e ++ (w ++ r)))) := by simp [← ht]
    have hd₁ : t.drop s.length = w₁ ++ .char '=' :: (w₂ ++ (e ++ (w ++ r))) :=
      drop_of_eq_append ht rfl
    have hd₂ : t.drop (s.length + w₁.length) = .char '=' :: (w₂ ++ (e ++ (w ++ r))) :=
      drop_of_eq_append (s := s ++ w₁) (by simp [ht]) (by simp)
    have hd₃ : t.drop (s.length + w₁.length + 1) = w₂ ++ (e ++ (w ++ r)) :=
      drop_of_eq_append (s := s ++ w₁ ++ [.char '=']) (by simp [ht]) (by simp; omega)
    have hd₄ : t.drop (s.length + w₁.length + 1 + w₂.length) = e ++ (w ++ r) :=
      drop_of_eq_append (s := s ++ w₁ ++ [.char '='] ++ w₂) (by simp [ht]) (by simp; omega)
    have he₁ : t.take (s.length + w₁.length + 1 + w₂.length + e.length) =
        s ++ (w₁ ++ .char '=' :: (w₂ ++ e)) :=
      take_of_eq_append (r := w ++ r) (by simp [ht]) (by simp; omega)
    simp only [CondParam.readDefault, hd₁, hw₁.triviaLength_eq hz, hd₂, List.head?_cons, if_true,
      hd₃, hw₂.triviaLength_eq (he.triviaLength h₀ hi), hd₄, hreach, if_neg hl, List.take_left,
      he₁]
    simp
    omega

/-- A default is read in one of two ways: no `=` stands behind the variable, or an expression stands
behind it. -/
theorem readDefault_eq_ok_iff {t name : Text} {n : Nat} {as : List Annotation}
    {v : Read Parameter} :
    readDefault t n name as = .ok v ↔ ∃ k, triviaLength (t.drop n) = .ok k ∧
      ((t.drop (n + k)).head? ≠ some (.char '=') ∧
        v = ⟨{ name, annotations := as, extent := t.take n }, n + k⟩ ∨
      ∃ m reach, (t.drop (n + k)).head? = some (.char '=') ∧
        triviaLength (t.drop (n + k + 1)) = .ok m ∧
        expressionReach true (t.drop (n + k + 1 + m)) = .ok reach ∧ reach.text ≠ 0 ∧
        v = ⟨{ name, annotations := as,
               default := some ((t.drop (n + k + 1 + m)).take reach.text),
               extent := t.take (n + k + 1 + m + reach.text) },
          n + k + 1 + m + reach.stop⟩) := by
  constructor
  · intro h
    unfold readDefault at h
    split at h
    · cases h
    · rename_i k hk
      refine ⟨k, hk, ?_⟩
      split at h
      · rename_i he
        split at h
        · cases h
        · rename_i m hm
          simp only at h
          split at h
          · cases h
          · rename_i reach hr
            split at h
            · cases h
            · rename_i hne
              cases h
              exact .inr ⟨m, reach, he, hm, hr, hne, rfl⟩
      · rename_i he
        cases h
        exact .inl ⟨he, rfl⟩
  · rintro ⟨k, hk, ⟨he, rfl⟩ | ⟨m, reach, he, hm, hr, hne, rfl⟩⟩
    · simp only [readDefault, hk, if_neg he]
    · simp only [readDefault, hk, if_pos he, hm, hr, if_neg hne]

/-- **What was read is a default**, or nothing, and the trivia behind it. -/
theorem readDefault_ok {s u name : Text} {as : List Annotation} {v : Read Parameter}
    (h : readDefault (s ++ u) s.length name as = .ok v) (hl : v.length < (s ++ u).length) :
    ∃ x w r d, u = x ++ (w ++ r) ∧ DefaultText x d ∧ Trivia true w ∧
      v = ⟨{ name, annotations := as, default := d, extent := s ++ x },
        (s ++ x).length + w.length⟩ := by
  obtain ⟨k, hk, h⟩ := readDefault_eq_ok_iff.1 h
  rw [List.drop_left] at hk
  obtain ⟨w₁, u, rfl, rfl, -, hw₁⟩ := triviaLength_ok hk
  rcases h with ⟨-, rfl⟩ | ⟨m, reach, he, hm, hr, hne, rfl⟩
  · refine ⟨[], w₁, u, none, rfl, .absent, hw₁ ?_, ?_⟩
    · rintro rfl
      simp at hl
    · rw [List.take_left, List.append_nil]
  · rw [drop_of_eq_append (s := s ++ w₁) (List.append_assoc ..).symm (by simp)] at he
    obtain ⟨u, rfl⟩ := List.head?_eq_some_iff.1 he
    have hd₁ : (s ++ (w₁ ++ .char '=' :: u)).drop (s.length + w₁.length + 1) = u :=
      drop_of_eq_append (s := s ++ w₁ ++ [.char '=']) (by simp) (by simp; omega)
    rw [hd₁] at hm
    obtain ⟨w₂, u, rfl, rfl, h₀, hw₂⟩ := triviaLength_ok hm
    have hd₂ : (s ++ (w₁ ++ .char '=' :: (w₂ ++ u))).drop
        (s.length + w₁.length + 1 + w₂.length) = u :=
      drop_of_eq_append (s := s ++ w₁ ++ [.char '='] ++ w₂) (by simp) (by simp; omega)
    rw [hd₂] at hr
    have hlt : reach.stop < u.length := by simp at hl; omega
    obtain ⟨e, w, r, rfl, rfl, hs⟩ := expressionReach_ok hr hlt
    have he : ExpressionText true e := hs.text.resolve_left fun h => hne (by simp [h])
    have he₁ : (s ++ (w₁ ++ .char '=' :: (w₂ ++ (e ++ (w ++ r))))).take
        (s.length + w₁.length + 1 + w₂.length + e.length) =
          s ++ (w₁ ++ .char '=' :: (w₂ ++ e)) :=
      take_of_eq_append (r := w ++ r) (by simp) (by simp; omega)
    refine ⟨w₁ ++ .char '=' :: (w₂ ++ e), w, r, some e, by simp,
      .present (hw₁ (by simp)) (hw₂ ?_) he (triviaLength_eq_zero_of_append h₀),
      hs.trivia.wrap, ?_⟩
    · exact List.append_ne_nil_of_left_ne_nil he.ne_nil _
    · simp only [hd₂, he₁, List.take_left, Read.mk.injEq, true_and]
      simp
      omega

/-! ## Declarations -/

/-- A whole declaration. -/
inductive ParameterText : Text → Parameter → Prop
  | mk {front var x name : Text} {annotations : List Annotation} {d : Option Text} :
      AnnotationsText front annotations → VariableText var name → DefaultText x d →
      ParameterText (front ++ (var ++ x))
        { name, annotations, default := d, extent := front ++ (var ++ x) }

theorem VariableText.head {s name : Text} (h : VariableText s name) (r : Text) :
    (s ++ r).head? = some (.char '$') := by
  cases h <;> rfl

theorem DefaultText.endsName {x r : Text} {d : Option Text} (h : DefaultText x d)
    (hr : EndsName r) : EndsName (x ++ r) := by
  cases h with
  | absent => exact hr
  | present hw _ _ _ =>
    rw [List.append_assoc]
    exact hw.endsName (by rintro c ⟨⟩; exact ⟨rfl, by decide⟩)

theorem endsName_stop {r : Text}
    (hr : r.head? = some (.char ',') ∨ r.head? = some (.char ')')) : EndsName r := by
  intro c hc
  rcases hr with hr | hr <;> rw [hr] at hc <;> cases hc <;> exact ⟨rfl, by decide⟩

namespace ParameterText

theorem extent_eq {s : Text} {p : Parameter} (h : ParameterText s p) : p.extent = s := by
  cases h
  rfl

/-- No trivia stands in front of a declaration. -/
theorem triviaLength {s : Text} {p : Parameter} (h : ParameterText s p) (r : Text) :
    triviaLength (s ++ r) = .ok 0 := by
  cases h with
  | mk hf hv _ =>
    rw [List.append_assoc]
    refine hf.triviaLength ?_
    rw [List.append_assoc]
    cases hv <;> exact triviaLength_eq_zero (c := .char '$') _ rfl (by decide)

/-- A declaration starts with an annotation or its variable. -/
theorem head {s : Text} {p : Parameter} (h : ParameterText s p) :
    ∃ c r, s = c :: r ∧ (c = '[' ∨ c = '$') := by
  cases h with
  | mk hf hv _ =>
    cases hf with
    | nil => cases hv <;> exact ⟨_, _, rfl, .inr rfl⟩
    | cons ha _ _ =>
      obtain ⟨g, rfl, -⟩ := ha.isGroup
      exact ⟨_, _, rfl, .inl rfl⟩

/-- **A declaration is read up to the comma or the parenthesis** behind it. -/
theorem readParameter {s w r : Text} {p : Parameter} (h : ParameterText s p)
    (hw : w.isBlank = true) (hr : r.head? = some (.char ',') ∨ r.head? = some (.char ')')) :
    readParameter (s ++ (w ++ r)) = .ok ⟨p, s.length + w.length⟩ := by
  cases h with
  | @mk front var x name annotations d hf hv hx =>
    have he : EndsName (x ++ (w ++ r)) :=
      hx.endsName ((Trivia.of_isBlank (b := true) hw).endsName (endsName_stop hr))
    have h₁ : front ++ (var ++ x) ++ (w ++ r) = front ++ (var ++ (x ++ (w ++ r))) := by simp
    have h₂ : front ++ (var ++ (x ++ (w ++ r))) = front ++ var ++ (x ++ (w ++ r)) := by simp
    rw [h₁, CondParam.readParameter, hf.readAnnotations (hv.head _)]
    simp only [List.drop_left, hv.readVariable he]
    rw [h₂, ← List.length_append, hx.readDefault hw hr, List.append_assoc]

end ParameterText

theorem readParameter_eq_ok_iff {t : Text} {v : Read Parameter} :
    readParameter t = .ok v ↔ ∃ front name, readAnnotations t = .ok front ∧
      readVariable (t.drop front.length) = .ok name ∧
      readDefault t (front.length + name.length) name.value front.value = .ok v := by
  constructor
  · intro h
    unfold readParameter at h
    split at h
    · cases h
    · rename_i front hf
      split at h
      · cases h
      · rename_i name hn
        exact ⟨front, name, hf, hn, h⟩
  · rintro ⟨front, name, hf, hn, h⟩
    simp only [readParameter, hf, hn, h]

/-- **What was read is a declaration** and the trivia behind it, if the text goes on. -/
theorem readParameter_ok {t : Text} {v : Read Parameter} (h : readParameter t = .ok v)
    (hl : v.length < t.length) :
    ∃ s w r, t = s ++ (w ++ r) ∧ v.length = s.length + w.length ∧ Trivia true w ∧
      ParameterText s v.value := by
  obtain ⟨front, var, hf, hv, h⟩ := readParameter_eq_ok_iff.1 h
  obtain ⟨s, u, rfl, hs, hfront⟩ := readAnnotations_ok hf
  rw [← hs, List.drop_left] at hv
  obtain ⟨s', u, rfl, hs', hvar⟩ := readVariable_ok hv
  rw [← hs, ← hs', ← List.append_assoc, ← List.length_append] at h
  rw [← List.append_assoc] at hl
  obtain ⟨x, w, r, d, rfl, hx, hw, rfl⟩ := readDefault_ok h hl
  have hne : s' ++ (x ++ (w ++ r)) ≠ [] := by
    intro h₀
    have := hvar.head (x ++ (w ++ r))
    rw [h₀] at this
    cases this
  refine ⟨s ++ (s' ++ x), w, r, by simp, by simp, hw, ?_⟩
  rw [List.append_assoc]
  exact .mk (hfront hne) hvar hx

/-! ## The declarations of a block -/

/-- A comma between two declarations, with trivia around it. -/
def Separator (t : Text) : Prop := ∃ u v, t = u ++ .char ',' :: v ∧ Trivia true u ∧ Trivia true v

/-- Declarations, with a separator between neighbours and trivia or a last separator at the end. -/
inductive DeclarationsText : Text → List Parameter → Prop
  | nil : DeclarationsText [] []
  | last {s w : Text} {p : Parameter} :
      ParameterText s p → Trivia true w → DeclarationsText (s ++ w) [p]
  | cons {s w r : Text} {p : Parameter} {ps : List Parameter} :
      ParameterText s p → Separator w → DeclarationsText r ps →
      DeclarationsText (s ++ (w ++ r)) (p :: ps)

section
variable {unclosed : Fault} {s w t r : Text} {p : Parameter} {first : Read Parameter} {k : Nat}

/-- The last declaration, where the closing parenthesis follows it. -/
theorem readDeclarations_closing (ht : t.head? ≠ some (.char ')'))
    (hf : readParameter t = .ok first) (hk : triviaLength (t.drop first.length) = .ok k)
    (hr : (t.drop first.length).drop k = .char ')' :: r) :
    readDeclarations unclosed t = .ok [first.value] := by
  cases t with
  | nil => simp at hr
  | cons c t =>
    have hc : c ≠ ')' := by simpa using ht
    rw [readDeclarations, if_neg hc, hf]
    simp only [hk, hr, List.head?_cons]

/-- A declaration, where a comma follows it. -/
theorem readDeclarations_comma {m : Nat} (ht : t.head? ≠ some (.char ')'))
    (hf : readParameter t = .ok first) (hk : triviaLength (t.drop first.length) = .ok k)
    (hr : (t.drop first.length).drop k = .char ',' :: r) (hm : triviaLength r = .ok m) :
    readDeclarations unclosed t =
      (readDeclarations unclosed (r.drop m)).map (first.value :: ·) := by
  cases t with
  | nil => simp at hr
  | cons c t =>
    have hc : c ≠ ')' := by simpa using ht
    rw [readDeclarations, if_neg hc, hf]
    simp only [hk, hr, List.head?_cons, List.drop_one, List.tail_cons, hm]

theorem ParameterText.head_ne (h : ParameterText s p) (r : Text) :
    (s ++ r).head? ≠ some (.char ')') := by
  obtain ⟨c, s, rfl, hc⟩ := h.head
  rcases hc with rfl | rfl <;> simp

theorem readDeclarations_last (h : ParameterText s p) (hw : w.isBlank = true) (r : Text) :
    readDeclarations unclosed (s ++ (w ++ .char ')' :: r)) = .ok [p] := by
  have hd : (s ++ (w ++ .char ')' :: r)).drop (s.length + w.length) = .char ')' :: r :=
    drop_of_eq_append (s := s ++ w) (by simp) (by simp)
  refine readDeclarations_closing (r := r) (k := 0) (h.head_ne _)
    (h.readParameter hw (.inr rfl)) ?_ ?_
  · rw [hd]
    exact triviaLength_stop (.inr rfl)
  · rw [hd]
    rfl

theorem readDeclarations_cons {w' : Text} (h : ParameterText s p) (hw : w.isBlank = true)
    (hw' : w'.isBlank = true) (ht : triviaLength t = .ok 0) :
    readDeclarations unclosed (s ++ (w ++ .char ',' :: (w' ++ t))) =
      (readDeclarations unclosed t).map (p :: ·) := by
  have hd : (s ++ (w ++ .char ',' :: (w' ++ t))).drop (s.length + w.length) =
      .char ',' :: (w' ++ t) :=
    drop_of_eq_append (s := s ++ w) (by simp) (by simp)
  have hw₀ := (Trivia.of_isBlank (b := true) hw').triviaLength_eq ht
  refine (readDeclarations_comma (h.head_ne _) (h.readParameter hw (.inl rfl)) (k := 0) ?_ ?_
    hw₀).trans ?_
  · rw [hd]
    exact triviaLength_stop (.inl rfl)
  · rw [hd]
    rfl
  · rw [List.drop_left]

end

/-- A declaration that was read, the trivia behind it, and the text that follows. -/
theorem declaration_ok {t r : Text} {first : Read Parameter} {k : Nat}
    (hf : readParameter t = .ok first) (hk : triviaLength (t.drop first.length) = .ok k)
    (hd : (t.drop first.length).drop k = r) (hr : r ≠ []) :
    ∃ s w, t = s ++ (w ++ r) ∧ Trivia true w ∧ ParameterText s first.value := by
  obtain ⟨w₂, r', he, rfl, -, hw₂⟩ := triviaLength_ok hk
  rw [he, List.drop_left] at hd
  subst hd
  have hl : first.length < t.length := by
    have := congrArg List.length he
    have := List.length_pos_iff.2 hr
    simp at *
    omega
  obtain ⟨s, w₁, u, rfl, hn, hw₁, hs⟩ := readParameter_ok hf hl
  have hu : u = w₂ ++ r' := by
    rw [← he]
    exact (drop_of_eq_append (s := s ++ w₁) (by simp) (by simp [hn])).symm
  refine ⟨s, w₁ ++ w₂, by simp [hu], hw₁.append (hw₂ hr), hs⟩

/-- **What was read are declarations**, up to the parenthesis that closes the block. -/
theorem readDeclarations_ok {unclosed : Fault} {t : Text} {ps : List Parameter}
    (h : readDeclarations unclosed t = .ok ps) :
    ∃ s r, t = s ++ .char ')' :: r ∧ DeclarationsText s ps := by
  fun_induction readDeclarations unclosed t generalizing ps with
  | case1 => cases h
  | case2 cs => cases h; exact ⟨[], cs, rfl, .nil⟩
  | case3 => cases h
  | case4 => cases h
  | case5 => cases h
  | case6 c cs hc first hf rest k hk =>
    rename_i hh
    obtain ⟨r, hr⟩ := List.head?_eq_some_iff.1 hh
    obtain ⟨s, w, he, hw, hs⟩ := declaration_ok hf hk hr (by simp)
    cases h
    exact ⟨s ++ w, r, by simp [he], .last hs hw⟩
  | case7 => cases h
  | case8 c cs hc first hf rest k hk hh k' hk' =>
    rename_i ih
    obtain ⟨r, hr⟩ := List.head?_eq_some_iff.1 hh
    obtain ⟨s, w, he, hw, hs⟩ := declaration_ok hf hk hr (by simp)
    rw [hr] at hk' ih h
    obtain ⟨ps, hps, rfl⟩ := of_map_eq_ok h
    obtain ⟨w', u, rfl, rfl, -, hw'⟩ := triviaLength_ok hk'
    rw [List.drop_one, List.tail_cons, List.drop_left] at hps ih
    obtain ⟨s', r, rfl, hs'⟩ := ih hps
    refine ⟨s ++ (w ++ .char ',' :: w' ++ s'), r, by simp [he], ?_⟩
    exact .cons hs ⟨w, w', rfl, hw, hw' (by simp)⟩ hs'
  | case9 => cases h

/-! ## The block -/

/-- No trivia stands in front of joined declarations. -/
theorem triviaLength_join {sep s : Text} {ss : List Text} {p : Parameter} (h : ParameterText s p)
    (r : Text) : triviaLength (Text.join sep (s :: ss) ++ r) = .ok 0 := by
  cases ss with
  | nil => rw [Text.join_singleton]; exact h.triviaLength r
  | cons s' ss => rw [Text.join_cons_cons, List.append_assoc]; exact h.triviaLength _

theorem readDeclarations_join {unclosed : Fault} {w w' r s : Text} {ss : List Text} {p : Parameter}
    {ps : List Parameter} (hs : ParameterText s p) (h : List.Forall₂ ParameterText ss ps)
    (hw : w.isBlank = true) (hw' : w'.isBlank = true) :
    readDeclarations unclosed
        (Text.join (.char ',' :: w) (s :: ss) ++ (w' ++ .char ')' :: r)) = .ok (p :: ps) := by
  induction h generalizing s p with
  | nil => rw [Text.join_singleton]; exact readDeclarations_last hs hw' r
  | @cons s₁ p₁ ss ps h₁ _ ih =>
    have he : Text.join (.char ',' :: w) (s :: s₁ :: ss) ++ (w' ++ .char ')' :: r) =
        s ++ ([] ++ .char ',' :: (w ++
          (Text.join (.char ',' :: w) (s₁ :: ss) ++ (w' ++ .char ')' :: r)))) := by
      rw [Text.join_cons_cons]
      simp
    rw [he, readDeclarations_cons hs rfl hw (triviaLength_join h₁ _), ih h₁]
    rfl

/-- **Joined declarations are read back**, whatever stands behind the block. -/
theorem readBlock_join {u w v r : Text} {ss : List Text} {ps : List Parameter}
    (h : List.Forall₂ ParameterText ss ps) (hu : u.isBlank = true) (hw : w.isBlank = true)
    (hv : v.isBlank = true) :
    readBlock (u ++ (Text.join (.char ',' :: w) ss ++ (v ++ .char ')' :: r))) = .ok ps := by
  have hz : triviaLength (.char ')' :: r) = .ok 0 := triviaLength_stop (.inr rfl)
  have ht : ∀ {x : Text}, x.isBlank = true → Trivia true x := fun hx => .of_isBlank hx
  cases h with
  | nil =>
    have hl := ((ht hu).append (ht hv)).triviaLength_eq hz
    have he : u ++ (Text.join (.char ',' :: w) [] ++ (v ++ .char ')' :: r)) =
        u ++ v ++ .char ')' :: r := by simp [Text.join, List.intercalate]
    rw [he, readBlock, hl]
    simp only [List.drop_left]
    rw [readDeclarations, if_pos rfl]
  | cons hs h =>
    rw [readBlock, (ht hu).triviaLength_eq (triviaLength_join hs _)]
    simp only [List.drop_left]
    exact readDeclarations_join hs h hw hv

/-- **What was read is a block**: trivia, the declarations and the closing parenthesis. -/
theorem readBlock_ok {t : Text} {ps : List Parameter} (h : readBlock t = .ok ps) :
    ∃ w s r, t = w ++ (s ++ .char ')' :: r) ∧ Trivia true w ∧ DeclarationsText s ps := by
  unfold readBlock at h
  split at h
  · cases h
  · rename_i k hk
    obtain ⟨w, u, rfl, rfl, -, hw⟩ := triviaLength_ok hk
    rw [List.drop_left] at h
    obtain ⟨s, r, rfl, hs⟩ := readDeclarations_ok h
    exact ⟨w, s, r, rfl, hw (by simp), hs⟩

end CondParam
