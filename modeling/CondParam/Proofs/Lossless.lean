import CondParam.Proofs.Declaration
import CondParam.Proofs.Locate
import CondParam.Script.Read

/-!
# Reading is lossless

Where a block was read, the text is the extents of its declarations, verbatim and in order, with
trivia and commas between them, behind the keyword and the attributes of the block
(`Script.read_lossless`). Each extent starts with its annotations and ends with its default
(`ParameterLayout`).
-/

set_option autoImplicit false

namespace CondParam

/-- The texts in order, with a gap behind each. -/
def interleave (texts gaps : List Text) : Text := .concat (List.zipWith (· ++ ·) texts gaps)

@[simp] theorem interleave_cons (t g : Text) (ts gs : List Text) :
    interleave (t :: ts) (g :: gs) = t ++ (g ++ interleave ts gs) := by
  simp [interleave]

/-- `s` is the texts in order, with a gap of the given kind behind each. -/
def Interleaved (gap : Text → Prop) (texts : List Text) (s : Text) : Prop :=
  ∃ gaps : List Text, gaps.length = texts.length ∧ (∀ g ∈ gaps, gap g) ∧ s = interleave texts gaps

theorem Interleaved.cons {gap : Text → Prop} {texts : List Text} {t g s : Text} (hg : gap g)
    (h : Interleaved gap texts s) : Interleaved gap (t :: texts) (t ++ (g ++ s)) := by
  obtain ⟨gaps, hl, hgaps, rfl⟩ := h
  exact ⟨g :: gaps, by simp [hl], by simpa using ⟨hg, hgaps⟩, by simp⟩

theorem AttributesText.interleaved {s : Text} {as : List Text} (h : AttributesText s as) :
    Interleaved (Trivia false) as s := by
  induction h with
  | nil => exact ⟨[], rfl, by simp, rfl⟩
  | cons _ hw _ ih => exact .cons hw ih

/-! ## One declaration -/

/-- The parts of a declaration in its extent: first the annotations, each in square brackets, with
trivia between them, and last the default. -/
structure ParameterLayout (p : Parameter) : Prop where
  annotations : ∃ front, front <+: p.extent ∧
    Interleaved (Trivia true) (p.annotations.map (·.extent)) front
  brackets : ∀ a ∈ p.annotations,
    a.extent.head? = some (.char '[') ∧ a.extent.getLast? = some (.char ']')
  default : ∀ d ∈ p.default, d <:+ p.extent

theorem AnnotationText.brackets {s : Text} {a : Annotation} (h : AnnotationText s a) :
    a.extent.head? = some (.char '[') ∧ a.extent.getLast? = some (.char ']') := by
  rw [h.extent_eq]
  obtain ⟨g, rfl, hg⟩ := h.isGroup
  obtain ⟨s, rfl⟩ := hg.closing_suffix
  exact ⟨rfl, by rw [← List.cons_append, List.getLast?_append]; rfl⟩

namespace AnnotationsText

theorem interleaved {s : Text} {as : List Annotation} (h : AnnotationsText s as) :
    Interleaved (Trivia true) (as.map (·.extent)) s := by
  induction h with
  | nil => exact ⟨[], rfl, by simp, rfl⟩
  | @cons s w r a as hs hw _ ih =>
    have he := hs.extent_eq
    subst he
    exact .cons hw ih

theorem brackets {s : Text} {as : List Annotation} (h : AnnotationsText s as) :
    ∀ a ∈ as, a.extent.head? = some (.char '[') ∧ a.extent.getLast? = some (.char ']') := by
  induction h with
  | nil => simp
  | cons hs _ _ ih => exact List.forall_mem_cons.2 ⟨hs.brackets, ih⟩

end AnnotationsText

theorem ParameterText.layout {s : Text} {p : Parameter} (h : ParameterText s p) :
    ParameterLayout p := by
  cases h with
  | mk hf _ hx =>
    refine ⟨⟨_, List.prefix_append _ _, hf.interleaved⟩, hf.brackets, ?_⟩
    cases hx with
    | absent => simp
    | @present w w' e _ _ _ _ =>
      rintro _ ⟨⟩
      have hd : e <:+ w ++ .char '=' :: (w' ++ e) :=
        ((List.suffix_append w' e).trans (List.suffix_cons _ _)).trans (List.suffix_append _ _)
      exact (hd.trans (List.suffix_append _ _)).trans (List.suffix_append _ _)

/-! ## The whole text -/

/-- Separators stand between neighbours, and trivia or one more separator at the end. -/
theorem DeclarationsText.gaps {s : Text} {ps : List Parameter} (h : DeclarationsText s ps) :
    ∃ gaps : List Text, gaps.length = ps.length ∧ s = interleave (ps.map (·.extent)) gaps ∧
      (∀ g ∈ gaps.dropLast, Separator g) ∧ ∀ g ∈ gaps.getLast?, Trivia true g ∨ Separator g := by
  induction h with
  | nil => exact ⟨[], rfl, rfl, by simp, by simp⟩
  | @last s w p hs hw =>
    refine ⟨[w], rfl, ?_, by simp, by simpa using .inl hw⟩
    simp [interleave, hs.extent_eq]
  | @cons s w r p ps hs hw _ ih =>
    obtain ⟨gaps, hl, rfl, hg, hlast⟩ := ih
    refine ⟨w :: gaps, by simp [hl], by simp [hs.extent_eq], ?_⟩
    cases gaps with
    | nil => exact ⟨by simp, by simpa using .inr hw⟩
    | cons g gaps =>
      refine ⟨?_, by simpa using hlast⟩
      rw [List.dropLast_cons_cons]
      exact List.forall_mem_cons.2 ⟨hw, hg⟩

theorem DeclarationsText.layout {s : Text} {ps : List Parameter} (h : DeclarationsText s ps) :
    ∀ p ∈ ps, ParameterLayout p := by
  induction h with
  | nil => simp
  | last hs _ => simpa using hs.layout
  | cons hs _ _ ih => exact List.forall_mem_cons.2 ⟨hs.layout, ih⟩

/-- What `Script.read` found and read. -/
theorem Script.read_ok {t : Text} {b : ParamBlock} (h : Script.read t = .ok { block := some b }) :
    ∃ rest, locateBlock t = .ok (some ⟨b.attributes, rest⟩) ∧
      readBlock rest = .ok b.parameters := by
  unfold Script.read at h
  split at h
  · cases h
  · cases h
  · rename_i l hl
    obtain ⟨ps, hps, he⟩ := of_map_eq_ok h
    cases he
    exact ⟨l.rest, hl, hps⟩

/-- The block `b` in the text `t`, verbatim: the attributes, the keyword, the parenthesis, and the
extents of the declarations with one comma and trivia between two of them, and trivia and at most
one comma behind the last. -/
def BlockLayout (t : Text) (b : ParamBlock) : Prop :=
  ∃ (before attributes kw lead rest : Text) (gaps : List Text),
    t = before ++ attributes ++ kw ++ .char '(' ::
      (lead ++ interleave (b.parameters.map (·.extent)) gaps ++ .char ')' :: rest) ∧
    Interleaved (Trivia false) b.attributes attributes ∧ IsKeyword kw ∧ Trivia true lead ∧
    gaps.length = b.parameters.length ∧ (∀ g ∈ gaps.dropLast, Separator g) ∧
    (∀ g ∈ gaps.getLast?, Trivia true g ∨ Separator g) ∧ ∀ p ∈ b.parameters, ParameterLayout p

/-- **Reading is lossless.** A block that was read stands in the text as it is. -/
theorem Script.read_lossless {t : Text} {b : ParamBlock}
    (h : Script.read t = .ok { block := some b }) : BlockLayout t b := by
  obtain ⟨rest, hl, hb⟩ := Script.read_ok h
  obtain ⟨pre, kw, rfl, hk, hp⟩ := locateFrom_ok hl
  obtain ⟨before, attributes, rfl, ha⟩ := hp.attributes
  obtain ⟨lead, s, rest, rfl, hw, hs⟩ := readBlock_ok hb
  obtain ⟨gaps, hlen, rfl, hg, hlast⟩ := hs.gaps
  exact ⟨before, attributes, kw, lead, rest, gaps, by simp, ha.interleaved, hk, hw, hlen, hg, hlast,
    hs.layout⟩

/-- A block with comments around a comma, and a comma behind the last declaration. -/
theorem Script.read_lossless_trailing_comma :
    let t : Text :=
      "# [a]\n[CmdletBinding()] <# , #>\nPARAM (`\n[int] $A = 1 # ,\n, [Alias('b')]$B,\n)"
    let b : ParamBlock :=
      { parameters :=
          [{ name := "A", default := some ("1" : Text), extent := "[int] $A = 1",
             annotations := [{ tag := "int", kind := .typeConstraint, extent := "[int]" }] },
           { name := "B", extent := "[Alias('b')]$B",
             annotations :=
               [{ tag := "Alias", positional := ["'b'"], extent := "[Alias('b')]" }] }],
        attributes := ["[CmdletBinding()]"] }
    Script.read t = .ok { block := some b } ∧ BlockLayout t b :=
  have h := eq_ok_of_toOption (by decide +kernel)
  ⟨h, Script.read_lossless h⟩

end CondParam
