import CondParam.Proofs.Reprinting

/-!
# Declarations that were read are regular

The generated function quotes names, tags, arguments and defaults without escaping them, so it
relies on their shapes. `Parameter.Regular` lists the shapes, and every declaration of a block that
was read has them (`Script.read_regular`). They follow the grammar: a tag is a name and groups
(`IsTag.strip_eq`), an argument is what is left between two commas (`AnnotationText.regular`), and a
default starts where trivia ends (`DefaultText.regular`).
-/

set_option autoImplicit false

namespace CondParam

/-! ## Regular declarations -/

/-- The name is an identifier; a value is not empty and has no blanks at its ends. -/
structure NamedArgument.Regular (a : NamedArgument) : Prop where
  name : a.name.isIdentifier = true
  value : ∀ v ∈ a.value, v ≠ [] ∧ v.strip = v

/-- A text that is taken for a positional argument, and for no named one. -/
structure RegularPositional (e : Text) : Prop where
  ne_nil : e ≠ []
  strip_eq : e.strip = e
  notIdentifier : e.isIdentifier = false
  notAssignment : ¬ StartsAssignment e

/-- The tag starts like a name and has no blanks at its ends, and a type constraint has no
arguments. -/
structure Annotation.Regular (a : Annotation) : Prop where
  tag_head : ∃ c ∈ a.tag.head?, isNameStart c = true
  tag_strip : a.tag.strip = a.tag
  constraint : a.kind = .typeConstraint → a.positional = [] ∧ a.named = []
  positional : ∀ e ∈ a.positional, RegularPositional e
  named : ∀ n ∈ a.named, n.Regular
  extent : a.extent.head? = some (.char '[')

/-- A text that starts with a line comment or a block comment. -/
def StartsComment (t : Text) : Prop := t.head? = some (.char '#') ∨ (['<', '#'] : Text) <+: t

/-- A default is not empty, and starts with neither white space nor a comment. -/
structure RegularDefault (d : Text) : Prop where
  ne_nil : d ≠ []
  notSpace : ∀ c ∈ d.head?, isSpace c = false
  notComment : ¬ StartsComment d

/-- A declaration that can be printed as it is. -/
structure Parameter.Regular (p : Parameter) : Prop where
  name : .char '}' ∉ p.name
  annotations : ∀ a ∈ p.annotations, a.Regular
  default : ∀ d ∈ p.default, RegularDefault d
  extent : p.extent.head? = some (.char '[') ∨ p.extent.head? = some (.char '$')

/-! ## Annotations -/

theorem mem_getLast?_append {s r : Text} {c : CodePoint} (h : c ∈ (s ++ r).getLast?) :
    c ∈ r.getLast? ∨ c ∈ s.getLast? := by
  rw [List.getLast?_append] at h
  exact (Option.or_eq_some_iff.1 h).imp_right And.right

theorem TagGroups.getLast? {s : Text} (h : TagGroups s) : ∀ c ∈ s.getLast?, c = ']' := by
  induction h with
  | nil => simp
  | cons hg _ ih =>
    intro c hc
    rcases mem_getLast?_append hc with hc | hc
    · exact ih c hc
    · obtain ⟨g, rfl, hg⟩ := hg
      obtain ⟨u, rfl⟩ := hg.closing_suffix
      rw [← List.cons_append, List.getLast?_concat] at hc
      cases hc
      rfl

theorem isSpace_of_isTagChar {c : CodePoint} (h : isTagChar c = true) : isSpace c = false := by
  simp only [isTagChar, Bool.or_eq_true, beq_iff_eq] at h
  rcases h with (h | rfl) | rfl
  · exact isSpace_of_isNameChar h
  · rfl
  · rfl

theorem IsTagName.not_isSpace {s : Text} (h : IsTagName s) : ∀ c ∈ s, isSpace c = false := by
  obtain ⟨c, cs, rfl, hc, hcs⟩ := h
  refine List.forall_mem_cons.2 ⟨?_, fun d hd => isSpace_of_isTagChar (hcs d hd)⟩
  exact isSpace_of_isNameChar (isNameChar_of_isNameStart hc)

/-- **A tag has no blanks at its ends**: it starts with a name, and ends with the name or with the
bracket of its last group. -/
theorem IsTag.strip_eq {tag : Text} (h : IsTag tag) : tag.strip = tag := by
  obtain ⟨name, groups, rfl, hn, hg⟩ := h
  refine Text.strip_eq_self_iff.2 ⟨fun c hc => ?_, fun c hc => ?_⟩
  · obtain ⟨d, ds, rfl, -⟩ := id hn
    cases hc
    exact hn.not_isSpace c (.head _)
  · rcases mem_getLast?_append hc with hc | hc
    · rw [hg.getLast? c hc]
      rfl
    · exact hn.not_isSpace c (List.mem_of_getLast? hc)

theorem IsTag.exists_head {tag : Text} (h : IsTag tag) : ∃ c ∈ tag.head?, isNameStart c = true := by
  obtain ⟨_, groups, rfl, ⟨c, cs, rfl, hc, -⟩, -⟩ := h
  exact ⟨c, rfl, hc⟩

theorem IsPositional.regular {s e : Text} (h : IsPositional s e) : RegularPositional e := by
  cases h.isArgument with
  | positional hne hi ha => exact ⟨hne, h.strip_eq, hi, ha⟩

theorem IsArgument.regular {x : Text} {n : NamedArgument} (h : IsArgument x (.named n)) :
    n.Regular := by
  cases h with
  | flag hn => exact ⟨hn, by simp⟩
  | @assigned name w r hn _ _ hr =>
    refine ⟨hn, ?_⟩
    rintro v ⟨⟩
    exact ⟨hr, r.strip_strip⟩

theorem AnnotationText.constraint {s : Text} {a : Annotation} (h : AnnotationText s a)
    (hk : a.kind = .typeConstraint) : a.positional = [] ∧ a.named = [] := by
  cases h with
  | mk _ _ _ hx =>
    cases hx with
    | blank _ => exact ⟨rfl, rfl⟩
    | arguments _ _ _ _ => cases hk

/-- **An annotation that was read is regular.** -/
theorem AnnotationText.regular {s : Text} {a : Annotation} (h : AnnotationText s a) :
    a.Regular where
  tag_head := h.isTag.exists_head
  tag_strip := h.isTag.strip_eq
  constraint := h.constraint
  positional e he := (h.isPositional e he).regular
  named n hn := by
    have ha : .named n ∈ a.arguments := List.mem_append_right _ (List.mem_map_of_mem hn)
    obtain ⟨x, -, -, hx⟩ := h.kept ha
    exact hx.regular
  extent := h.brackets.1

/-! ## Declarations -/

/-- Where no trivia stands, neither white space nor a comment starts. -/
theorem not_startsComment_of_triviaLength {d : Text} (hd : d ≠ []) (h : triviaLength d = .ok 0) :
    (∀ c ∈ d.head?, isSpace c = false) ∧ ¬ StartsComment d := by
  obtain ⟨c, r, rfl⟩ := List.exists_cons_of_ne_nil hd
  obtain ⟨hs, hc, hl, -⟩ := triviaLength_cons_eq_zero.1 h
  refine ⟨(by rintro _ ⟨⟩; exact hs), ?_⟩
  rintro (he | ⟨u, hu⟩)
  · exact hc (Option.some.inj he)
  · cases hu
    exact hl rfl rfl

theorem DefaultText.regular {x : Text} {d : Option Text} (h : DefaultText x d) :
    ∀ e ∈ d, RegularDefault e := by
  cases h with
  | absent => simp
  | present _ _ he ht =>
    rintro e ⟨⟩
    obtain ⟨hs, hc⟩ := not_startsComment_of_triviaLength he.ne_nil ht
    exact ⟨he.ne_nil, hs, hc⟩

/-- **A declaration that was read is regular.** -/
theorem ParameterText.regular {s : Text} {p : Parameter} (h : ParameterText s p) : p.Regular where
  name := by
    cases h with
    | mk _ hv _ => exact hv.closing_notMem
  annotations a ha := (h.annotationText a ha).regular
  default := by
    cases h with
    | mk _ _ hx => exact hx.regular
  extent := by
    obtain ⟨c, r, hs, hc⟩ := h.head
    rw [h.extent_eq, hs, List.head?_cons]
    exact hc.imp (congrArg some) (congrArg some)

/-- **Every declaration of a block that was read is regular.** -/
theorem Script.read_regular {t : Text} {b : ParamBlock}
    (h : Script.read t = .ok { block := some b }) : ∀ p ∈ b.parameters, p.Regular := by
  obtain ⟨rest, -, hb⟩ := Script.read_ok h
  obtain ⟨lead, body, rest, -, -, hs⟩ := readBlock_ok hb
  intro p hp
  exact (hs.parameterText p hp).regular

/-- A generic type name, an argument that compares, one with a comment in it, a flag, a name with a
blank, and comments and a continued line before the default. -/
theorem Script.read_regular_generic_type :
    let t : Text :=
      "param([ List\x601[int] ] [A( x == 1 , N = <# , #> 'v' , On )] $\x7ba b\x7d = #\n \x60\n 1 )"
    let p : Parameter :=
      { name := "a b", default := some ("1" : Text),
        extent :=
          "[ List\x601[int] ] [A( x == 1 , N = <# , #> 'v' , On )] $\x7ba b\x7d = #\n \x60\n 1",
        annotations :=
          [{ tag := "List\x601[int]", kind := .typeConstraint, extent := "[ List\x601[int] ]" },
           { tag := "A", positional := ["x == 1"],
             named := [⟨"N", some ("'v'" : Text)⟩, ⟨"On", none⟩],
             extent := "[A( x == 1 , N = <# , #> 'v' , On )]" }] }
    Script.read t = .ok { block := some { parameters := [p] } } ∧ p.Regular := by
  intro t p
  have h : Script.read t = .ok { block := some { parameters := [p] } } :=
    eq_ok_of_toOption (by decide +kernel)
  exact ⟨h, Script.read_regular h p (.head _)⟩

end CondParam
