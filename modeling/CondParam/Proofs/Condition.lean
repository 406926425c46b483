import CondParam.Proofs.Classification
import CondParam.Proofs.KeptText

/-!
# Conditions and guards

A marker whose first argument is a script block gives what stands in the block as the condition, and
the condition stands between the parentheses of the guard as it stood between the braces of the
block. What fills the braces of a group fills the parentheses of another (`GroupRest.reclose`), so
the guard closes where it should (`Script.condition_verbatim`).
-/

set_option autoImplicit false

namespace CondParam

/-! ## Script blocks -/

/-- **A group that is kept as a whole stands in the text as it is.** -/
theorem Kept.group_infix {s g : Text} {b : Bracket} (h : Kept s (b.opening :: g))
    (hg : GroupRest b true g) : b.opening :: g <:+: s := by
  obtain ⟨ts, w, w', hw, he, hts⟩ := h
  have hblank : ∀ d ∈ w, d ∉ lexicalMarks := fun d hd => (ordinary_of_isBlank hw d hd).1
  obtain ⟨g', ts', hm, he⟩ := exists_span_behind (fun t ht => (hts t ht).1) hblank he
  -- two groups that start at one place end at one place
  have hl : g.length = g'.length := by
    have hg' := ((hts _ hm).1.groupRest).groupTail ts'.flatten
    rw [← he, List.append_eq, hg.groupTail] at hg'
    exact Except.ok.inj hg'
  obtain ⟨rfl, -⟩ := List.append_inj he hl
  exact (hts _ hm).2

/-- The condition in a script block is everything between the braces. -/
theorem stripCondition_block (body : Text) :
    stripCondition (.char '{' :: (body ++ [.char '}'])) = body := by
  have hs : Text.strip (.char '{' :: (body ++ [.char '}'])) = .char '{' :: (body ++ [.char '}']) :=
    Text.strip_eq_self_iff.2 ⟨by rintro c ⟨⟩; rfl, by
      rw [← List.cons_append, List.getLast?_concat]
      rintro c ⟨⟩
      rfl⟩
  have hl : (.char '{' :: (body ++ [.char '}'])).getLast? = some (CodePoint.char '}') := by
    rw [← List.cons_append, List.getLast?_concat]
  unfold stripCondition
  rw [hs]
  dsimp only
  rw [if_pos ⟨by simp, rfl, hl⟩, List.drop_one, List.tail_cons, List.dropLast_concat]

/-! ## Guards -/

/-- Without a condition no line is a guard. -/
theorem Conditional.not_guard {c : Conditional} (h : c.condition = []) :
    ∀ line ∈ c.registrationLines, ¬ Text.concat [bodyIndent, "if ("] <+: line := by
  rintro line hl ⟨s, rfl⟩
  have he : Text.concat [bodyIndent, "if ("] ++ s =
      bodyIndent ++ .char 'i' :: (("f (" : Text) ++ s) := by
    simp [Text.ofChars]
  have hg := (c.mem_registrationLines he (by decide) (by decide) (by decide)).1 hl
  exact hg.1 h

theorem Parameter.toConditional_mem {settings : Settings} {b : ParamBlock} {p : Parameter}
    (hp : p ∈ b.parameters) (hc : p.isConditional settings.marker = true) :
    p.toConditional settings.marker ∈ (b.classify settings).dynamic := by
  rw [ParamBlock.classify, classify_eq]
  exact List.mem_map.2 ⟨p, List.mem_filter.2 ⟨hp, hc⟩, rfl⟩

/-- The registration of a conditional parameter stands in the function. -/
theorem ParamBlock.registration_infix {settings : Settings} {b : ParamBlock} {c : Conditional}
    (hc : c ∈ (b.classify settings).dynamic) :
    c.registrationLines <:+: (b.generate settings).emission.registration := by
  have hr := (emit_holds settings.stream (Classifying.addAll settings {} b.parameters).report
    (b.classify settings)).registration
  obtain ⟨before, after, he⟩ := List.append_of_mem hc
  refine ⟨before.flatMap (·.registrationLines), after.flatMap (·.registrationLines), ?_⟩
  refine Eq.trans ?_ hr.symm
  rw [he]
  simp

/-- **A script block reaches its guard verbatim and well bracketed.** What stands between the braces
of a marker's script block stands in the marker as it is and is the condition. If it is empty there
is no guard; otherwise the registration is guarded by it, and the parenthesis that opens in front of
it closes right behind it. -/
theorem Script.condition_verbatim {t : Text} {b : ParamBlock} (settings : Settings)
    (h : Script.read t = .ok { block := some b }) {p : Parameter} (hp : p ∈ b.parameters)
    {m : Annotation} (hm : (p.withRole settings.marker .marker).head? = some m) {body : Text}
    (hb : m.positional.head? = some (.char '{' :: (body ++ [.char '}'])))
    (hg : Bracket.brace.groupTail (body ++ [.char '}']) = .ok (body.length + 1)) :
    body <:+: m.extent ∧
    ∃ c ∈ (b.classify settings).dynamic, c = p.toConditional settings.marker ∧
      c.condition = body ∧
      c.registrationLines <:+: (b.generate settings).emission.registration ∧
      (body = [] → ∀ line ∈ c.registrationLines, ¬ Text.concat [bodyIndent, "if ("] <+: line) ∧
      (body ≠ [] → ∃ inner, c.registrationLines =
        [.concat [bodyIndent, "#region ", p.name],
          .concat [bodyIndent, "if (", body, ") \x7b"]] ++ inner ++
        [.concat [bodyIndent, "\x7d"], .concat [bodyIndent, "#endregion ", p.name]]) ∧
      ∀ r, Bracket.paren.groupTail (body ++ .char ')' :: r) = .ok (body.length + 1) := by
  have hbody : GroupRest .brace true (body ++ [.char '}']) :=
    .of_groupTail (hg.trans (by rw [List.length_append]; rfl))
  obtain ⟨hma, hrole⟩ := List.mem_filter.1 (List.mem_of_head? hm)
  have hconditional : p.isConditional settings.marker = true :=
    Parameter.isConditional_iff.2 ⟨m, hma, of_decide_eq_true hrole⟩
  have hc : (p.toConditional settings.marker).condition = body := by
    have hraw : p.condition settings.marker =
        stripCondition (.char '{' :: (body ++ [.char '}'])) := by
      rw [Parameter.condition, Parameter.rawCondition?, hm, Option.bind_some, hb]
      rfl
    exact hraw.trans (stripCondition_block body)
  have hmember := Parameter.toConditional_mem hp hconditional
  refine ⟨?_, _, hmember, rfl, hc, ParamBlock.registration_infix hmember,
    fun he => Conditional.not_guard (hc.trans he), fun he => ?_, fun r => ?_⟩
  · have ha : .positional (.char '{' :: (body ++ [.char '}'])) ∈ m.arguments :=
      List.mem_append_left _ (List.mem_map_of_mem (List.mem_of_head? hb))
    obtain ⟨x, hk, -, hx⟩ := (Script.annotationText h hp hma).kept ha
    cases hx
    refine List.IsInfix.trans ⟨[.char '{'], [.char '}'], ?_⟩ (hk.group_infix (b := .brace) hbody)
    rfl
  · have hr := (p.toConditional settings.marker).registered.guarded (by rwa [hc])
    rwa [Conditional.guardLine, hc] at hr
  · have hparen : GroupRest .paren true (body ++ [.char ')']) := hbody.reclose
    have hr := hparen.groupTail r
    rwa [List.append_assoc, List.length_append] at hr

/-- A comment before the block is cut out; one in the block, with a parenthesis, is kept. -/
theorem Script.condition_verbatim_comments :
    let body : Text := " $x -eq '\x7d' # )\n "
    let extent : Text := "[Dynamic( <#,#> \x7b $x -eq '\x7d' # )\n \x7d)]"
    let m : Annotation :=
      { tag := "Dynamic", positional := ["\x7b $x -eq '\x7d' # )\n \x7d"], extent }
    let p : Parameter :=
      { name := "A", annotations := [m], extent := Text.concat [extent, "$A"] }
    let b : ParamBlock := { parameters := [p] }
    Script.read (.concat ["param(", extent, "$A)"]) = .ok { block := some b } ∧
      body <:+: extent ∧ ∃ c ∈ (b.classify {}).dynamic, c.condition = body ∧
        ("        if ( $x -eq '\x7d' # )\n ) \x7b" : Text) ∈ c.registrationLines ∧
        ∀ r, Bracket.paren.groupTail (body ++ .char ')' :: r) = .ok 18 := by
  intro body extent m p b
  have h : Script.read (.concat ["param(", extent, "$A)"]) = .ok { block := some b } :=
    eq_ok_of_toOption (by decide +kernel)
  have hb : m.positional.head? = some (.char '{' :: (body ++ [.char '}'])) := rfl
  obtain ⟨hm, c, hc, -, hcond, -, -, hguard, hclose⟩ :=
    Script.condition_verbatim {} h (.head _ : p ∈ b.parameters) rfl hb
      (eq_ok_of_toOption (by decide +kernel))
  obtain ⟨inner, he⟩ := hguard (by decide)
  refine ⟨h, hm, c, hc, hcond, ?_, hclose⟩
  rw [he]
  exact List.mem_append_left _ (List.mem_append_left _ (.tail _ (.head _)))

end CondParam
