import CondParam.Emission.Fragment
import CondParam.Proofs.PrintedList

/-!
# Reading a printed annotation again

The arguments of an annotation are kept without their comments and without blanks at their ends, and
what is kept need not read as it did: a comment may have stood between two halves of another mark,
and the blank at an end may have been escaped. An annotation is read again with the same arguments
exactly if all of them stand alone (`Script.annotation_survives_iff`).
-/

set_option autoImplicit false

namespace CondParam

/-! ## Annotations -/

namespace Annotation

/-- The printed annotation is read with the same tag and the same arguments. -/
def Survives (a : Annotation) : Prop :=
  ∃ v, readAnnotation ((a.print .single).drop 1) = .ok v ∧ v.value.tag = a.tag ∧
    v.value.positional = a.positional ∧ v.value.named = a.named

theorem print_eq {a : Annotation} (hk : a.kind = .attr) :
    a.print .single = .char '[' :: (a.tag ++ .char '(' ::
      (Spacing.single.commas (a.arguments.map (·.print .single)) ++ [.char ')', .char ']'])) := by
  simp [hk, Annotation.print, printArguments]

end Annotation

namespace AnnotationText

variable {s : Text} {a : Annotation}

theorem isTag (h : AnnotationText s a) : IsTag a.tag := by
  cases h with
  | mk _ ht _ hx => cases hx <;> exact ht

/-- Arguments that stand alone are printed as a list that is cut into them. -/
theorem exists_spans (h : AnnotationText s a)
    (ha : ∀ x ∈ a.arguments, StandsAlone true (x.print .single)) : ∃ spans,
      ArgumentList true spans
        (Spacing.single.commas (a.arguments.map (·.print .single)) ++ [.char ')']) ∧
      List.Forall₂ (fun p x => readArgument p.text = .ok x) (argumentPieces spans)
        a.arguments := by
  have harg : ∀ x ∈ a.arguments,
      IsArgument (x.print .single) x ∧ (x.print .single).strip = x.print .single := by
    intro x hx
    obtain ⟨y, -, hs, hy⟩ := h.kept hx
    exact ⟨hy.print, hy.strip_print hs⟩
  obtain ⟨spans, hl, hp⟩ :=
    exists_argumentList (w := Spacing.single.comma) (a.arguments.map (·.print .single)) rfl
      (List.forall_mem_map.2 fun x hx fresh => (ha x hx).codeText fun _ => rfl)
      (List.forall_mem_map.2 fun x hx =>
        ⟨(harg x hx).1.ne_nil, (Text.strip_eq_self_iff.1 (harg x hx).2).1⟩)
  refine ⟨spans, hl, readArguments_of_holds hp fun x hx p => ?_⟩
  rintro ⟨w, hw, he⟩
  rw [he]
  exact (harg x hx).1.readArgument (harg x hx).2 hw

/-- **Arguments that stand alone are read again.** -/
theorem survives (h : AnnotationText s a) (hk : a.kind = .attr)
    (hg : IsGroup .square (a.print .single))
    (ha : ∀ x ∈ a.arguments, StandsAlone true (x.print .single)) : a.Survives := by
  obtain ⟨spans, hl, hf⟩ := h.exists_spans ha
  have hx := Annotation.afterTag_print hk hl hf
  have hread := AnnotationText.readAnnotation (.mk (w := []) rfl h.isTag hg hx) []
  rw [List.append_nil] at hread
  exact ⟨_, hread, rfl, rfl, rfl⟩

/-- A tag without backticks takes nothing along. -/
theorem isGroup_print (h : AnnotationText s a) (hk : a.kind = .attr) (hb : backtick ∉ a.tag)
    (ha : ∀ x ∈ a.arguments, StandsAlone true (x.print .single)) :
    IsGroup .square (a.print .single) := by
  obtain ⟨spans, hl, -⟩ := h.exists_spans ha
  obtain ⟨name, groups, ht, ⟨c, cs, rfl, hc, hcs⟩, hgroups⟩ := h.isTag
  have hname : ∀ d ∈ c :: cs, d ∉ lexicalMarks := by
    refine List.forall_mem_cons.2 ⟨?_, fun d hd => ?_⟩
    · exact notMem_lexicalMarks_of_isNameChar (isNameChar_of_isNameStart hc)
    · have hd' := hcs d hd
      simp only [isTagChar, Bool.or_eq_true, beq_iff_eq] at hd'
      rcases hd' with (hd' | rfl) | rfl
      · exact notMem_lexicalMarks_of_isNameChar hd'
      · decide
      · exact absurd (by rw [ht]; exact .tail _ (List.mem_append_left _ hd)) hb
  refine ⟨_, rfl, ?_⟩
  rw [ht, List.append_assoc]
  refine GroupRest.ordinary hname (hgroups.groupRest fun fresh => ?_) true
  have he : a.printArguments .single ++ [.char ']'] = Bracket.paren.opening ::
      (Spacing.single.commas (a.arguments.map (·.print .single)) ++ [.char ')'] ++
        [.char ']']) := by
    simp [hk, Annotation.printArguments, Bracket.opening]
  rw [he]
  exact .group hl.groupRest .close

/-- The positional arguments of an annotation are kept of its text. -/
theorem isPositional (h : AnnotationText s a) : ∀ e ∈ a.positional, IsPositional s e := by
  intro e he
  have ha : .positional e ∈ a.arguments := List.mem_append_left _ (List.mem_map_of_mem he)
  obtain ⟨x, hk, hs, hx⟩ := h.kept ha
  cases hx with
  | positional hne hi hn => exact ⟨hk, hs, .positional hne hi hn⟩

end AnnotationText

theorem IsTag.head_append {tag : Text} (h : IsTag tag) (r : Text) :
    ∀ c ∈ (tag ++ r).head?, isSpace c = false := by
  obtain ⟨_, groups, rfl, ⟨c, cs, rfl, hc, -⟩, -⟩ := h
  rintro d ⟨⟩
  exact isSpace_of_isNameChar (isNameChar_of_isNameStart hc)

theorem AfterTag.tag_eq {tag extent x : Text} {a : Annotation} (h : AfterTag tag extent x a) :
    a.tag = tag := by
  cases h <;> rfl

/-- Where a parenthesis stands right behind the tag, an argument list starts. -/
theorem AfterTag.exists_arguments {tag extent x r y : Text} {a : Annotation}
    (h : AfterTag tag extent x a) (he : x ++ .char ']' :: r = .char '(' :: y) :
    ∃ args w spans arguments, w.isBlank = true ∧ ArgumentList true spans args ∧
      List.Forall₂ (fun p a => readArgument p.text = .ok a) (argumentPieces spans) arguments ∧
      a.positional = positionalArguments arguments ∧ a.named = namedArguments arguments ∧
      args ++ (w ++ .char ']' :: r) = y := by
  have hopening := isSpace_head_cons (c := .char '(') rfl
  cases h with
  | blank hx =>
    obtain ⟨-, hne⟩ := Text.blank_append_inj hx (rfl : Text.isBlank [] = true)
      (isSpace_head_cons (c := .char ']') rfl _) (hopening _) he
    cases (List.cons.inj hne).1
  | @arguments w args w' spans arguments hw hl hw' hf =>
    rw [List.append_assoc] at he
    obtain ⟨-, hlist⟩ := Text.blank_append_inj hw (rfl : Text.isBlank [] = true) (hopening _)
      (hopening _) he
    refine ⟨args, w', spans, arguments, hw', hl, hf, rfl, rfl, ?_⟩
    rw [← List.append_assoc]
    exact (List.cons.inj hlist).2

theorem AnnotationText.exists_arguments {s cs r y : Text} {a : Annotation}
    (h : AnnotationText s a) (hs : s = .char '[' :: cs) (he : cs ++ r = a.tag ++ .char '(' :: y) :
    ∃ args w spans arguments, w.isBlank = true ∧ ArgumentList true spans args ∧
      List.Forall₂ (fun p a => readArgument p.text = .ok a) (argumentPieces spans) arguments ∧
      a.positional = positionalArguments arguments ∧ a.named = namedArguments arguments ∧
      args ++ (w ++ .char ']' :: r) = y := by
  cases h with
  | @mk w tag x a hw ht _ hx =>
    obtain rfl := (List.cons.inj hs).2
    rw [hx.tag_eq] at he
    have he : w ++ (tag ++ (x ++ .char ']' :: r)) = [] ++ (tag ++ .char '(' :: y) := by
      simpa using he
    obtain ⟨-, he⟩ := Text.blank_append_inj hw rfl (ht.head_append _) (ht.head_append _) he
    exact hx.exists_arguments (List.append_cancel_left he)

/-- **What is read again stands alone.** -/
theorem AnnotationText.standsAlone {s : Text} {a : Annotation} (h : AnnotationText s a)
    (hk : a.kind = .attr) (hs : a.Survives) :
    IsGroup .square (a.print .single) ∧
      ∀ x ∈ a.arguments, StandsAlone true (x.print .single) := by
  obtain ⟨⟨a', n⟩, hv, htag, hpositional, hnamed⟩ := hs
  obtain ⟨cs, r, he, -, ha⟩ := readAnnotation_ok hv
  have hprint := Annotation.print_eq hk
  rw [hprint, List.drop_one, List.tail_cons, ← htag] at he
  obtain ⟨args, w, spans, arguments, hw, hl, hf, hp, hn, hlist⟩ :=
    ha.exists_arguments rfl he.symm
  have hargs : a.arguments = positionalFirst arguments := by
    unfold Annotation.arguments
    rw [← hpositional, ← hnamed, hp, hn]
    rfl
  have hkept : ∀ e ∈ positionalArguments arguments, IsPositional s e :=
    fun e he => h.isPositional e (hpositional ▸ hp ▸ he)
  rw [hargs] at hlist
  obtain ⟨hall, hz⟩ := standsAlone_of_list hl hf hkept hlist
  -- nothing is left behind what was read
  have hr : r = [] := by
    have hclosing := isSpace_head_cons (c := .char ']') rfl
    obtain ⟨-, hz⟩ := Text.blank_append_inj hw (rfl : Text.isBlank [] = true) (hclosing _)
      (hclosing _) hz
    exact (List.cons.inj hz).2
  rw [hr, List.append_nil, htag] at he
  rw [hprint, he]
  exact ⟨ha.isGroup, hargs ▸ hall⟩

/-- **An annotation survives being printed and read exactly if its arguments stand alone**, and the
printed text is one group, as it is if no backtick stands in the tag. -/
theorem Script.annotation_survives_iff {t : Text} {b : ParamBlock}
    (h : Script.read t = .ok { block := some b }) {p : Parameter} (hp : p ∈ b.parameters)
    {a : Annotation} (ha : a ∈ p.annotations) (hk : a.kind = .attr) :
    (a.Survives ↔ IsGroup .square (a.print .single) ∧
      ∀ x ∈ a.arguments, StandsAlone true (x.print .single)) ∧
    (backtick ∉ a.tag →
      (a.Survives ↔ ∀ x ∈ a.arguments, StandsAlone true (x.print .single))) ∧
    a.print .single = .char '[' :: (a.tag ++ .char '(' :: (Spacing.single.commas
      (a.positional ++ a.named.map (·.print .single)) ++ [.char ')', .char ']'])) ∧
    ∀ indent, a.constructionLine indent = .concat
      [indent, "$Attribute = [", a.tag, "]::new(", Spacing.single.commas a.positional, ")"] := by
  have htext := Script.annotationText h hp ha
  have hprint : a.arguments.map (·.print .single) =
      a.positional ++ a.named.map (·.print .single) := by
    simp [Argument.print, Annotation.arguments, Function.comp_def]
  refine ⟨⟨htext.standsAlone hk, fun hs => htext.survives hk hs.1 hs.2⟩,
    fun hb => ⟨fun hs => (htext.standsAlone hk hs).2, fun hs => ?_⟩, ?_, fun _ => rfl⟩
  · exact htext.survives hk (htext.isGroup_print hk hb hs) hs
  · rw [← hprint]
    exact Annotation.print_eq hk

/-- Comments between the arguments are not missed, and named arguments move to the end. -/
theorem Script.annotation_survives_iff_comments :
    let a : Annotation :=
      { tag := "Set", positional := ["'a,'", "(1, #\n2)"],
        named := [⟨"M", none⟩, ⟨"N", some "3"⟩],
        extent := "[Set(M, 'a,' # ,\n, N=<#)#>3, (1, #\n2))]" }
    let p : Parameter :=
      { name := "x", annotations := [a], extent := Text.concat [a.extent, "$x"] }
    let b : ParamBlock := { parameters := [p] }
    Script.read (.concat ["param(", a.extent, "$x)"]) = .ok { block := some b } ∧
      a.print .single = "[Set('a,', (1, #\n2), M, N = 3)]" ∧ a.Survives := by
  intro a p b
  have h : Script.read (.concat ["param(", a.extent, "$x)"]) = .ok { block := some b } :=
    eq_ok_of_toOption (by decide +kernel)
  have hs := Script.annotation_survives_iff h (.head _) (.head _ : a ∈ [a]) rfl
  exact ⟨h, by decide +kernel, (hs.2.1 (by decide)).2 (by decide +kernel)⟩

/-- An escaped line end at the end of an argument is cut in two: the backtick that is left takes the
comma behind it along, and two arguments are read as one. -/
theorem Script.annotation_escaped_line_end :
    let a : Annotation :=
      { tag := "ValidateSet", positional := ["'a' `", "'b'"],
        extent := "[ValidateSet('a' `\n, 'b')]" }
    let p : Parameter :=
      { name := "x", annotations := [a], extent := Text.concat [a.extent, "$x"] }
    let b : ParamBlock := { parameters := [p] }
    Script.read (.concat ["param(", a.extent, "$x)"]) = .ok { block := some b } ∧
      a.print .single = "[ValidateSet('a' `, 'b')]" ∧
      (Except.toOption <| readAnnotation ((a.print .single).drop 1)).map (·.value.positional) =
        some [("'a' `, 'b'" : Text)] ∧ ¬ a.Survives := by
  intro a p b
  have hread :
      (Except.toOption <| readAnnotation ((a.print .single).drop 1)).map (·.value.positional) =
        some [("'a' `, 'b'" : Text)] := by decide +kernel
  refine ⟨eq_ok_of_toOption (by decide +kernel), by decide +kernel, hread, ?_⟩
  rintro ⟨v, hv, -, hp, -⟩
  rw [hv] at hread
  exact absurd (hp.symm.trans (Option.some.inj hread)) (by decide)

end CondParam
