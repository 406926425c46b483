import CondParam.Proofs.Classification
import CondParam.Proofs.Lossless

/-!
# Generating again

The head of a generated function is a parameter block: reading the source gives the static
declarations and the attributes back, verbatim (`ParamBlock.read_source`). Nothing is left to
generate from it but the same static declarations.
-/

set_option autoImplicit false

namespace CondParam

/-! ## The head of the function -/

/-- The source up to the parenthesis that opens its block. -/
def sourceHead (name : Text) (attributes : List Text) : Text :=
  .concat ["function ", name, " \x7b\n", bindingText attributes, "\n    param"]

/-- The line of the static declarations; none without them. -/
def staticLine (region : Text) : Text :=
  if region.isBlank then [] else .concat ["        ", region, "\n"]

theorem isBlank_append_left {s t : Text} (h : s.isBlank = false) : (s ++ t).isBlank = false := by
  simp only [Text.isBlank, List.all_append, Bool.and_eq_false_iff] at h ⊢
  exact .inl h

section
variable {value : Slot → Text} {before after : Text} {slot : Slot}

theorem fill_fixed (t : Text) : (SkeletonLine.fixed t).fill value = some t := rfl

theorem fill_slot (h : before.isBlank = false) :
    (SkeletonLine.slot before slot after).fill value = some (before ++ value slot ++ after) := by
  have hb : (before ++ value slot ++ after).isBlank = false :=
    isBlank_append_left (isBlank_append_left h)
  simp only [SkeletonLine.fill, hb]
  rfl

end

/-- **The source starts with a block** that holds the static region. -/
theorem assemble_eq (name : Text) (regions : Region → Text) {attributes : List Text}
    (h : (bindingText attributes).isBlank = false) :
    ∃ tail, assemble name regions attributes =
      sourceHead name attributes ++ .char '(' :: .char '\n' ::
        (staticLine (regions .static) ++ (("    )" : Text) ++ tail)) := by
  have h₁ : (SkeletonLine.slot "function " .name " \x7b").fill (slotText name regions attributes) =
      some (("function " : Text) ++ name ++ " \x7b") := fill_slot rfl
  have h₂ : (SkeletonLine.slot [] .binding []).fill (slotText name regions attributes) =
      some (bindingText attributes) := by
    simp [SkeletonLine.fill, slotText, h]
  obtain ⟨more, hm⟩ : ∃ more,
      (skeleton.drop 5).filterMap (·.fill (slotText name regions attributes)) =
      ([] : Text) :: more := ⟨_, rfl⟩
  have hs : skeleton.filterMap (·.fill (slotText name regions attributes)) =
      (("function " : Text) ++ name ++ " \x7b") :: bindingText attributes ::
        ("    param(" : Text) :: (((SkeletonLine.slot "        " (.region .static) []).fill
          (slotText name regions attributes)).toList ++ ("    )" : Text) :: [] :: more) := by
    rw [← hm]
    refine (List.filterMap_cons_some h₁).trans (congrArg _ ?_)
    refine (List.filterMap_cons_some h₂).trans (congrArg _ ?_)
    refine (List.filterMap_cons_some (fill_fixed _)).trans (congrArg _ ?_)
    cases h₄ : (SkeletonLine.slot "        " (.region .static) []).fill
        (slotText name regions attributes) with
    | none => exact (List.filterMap_cons_none h₄).trans (List.filterMap_cons_some (fill_fixed _))
    | some line =>
      exact (List.filterMap_cons_some h₄).trans
        (congrArg _ (List.filterMap_cons_some (fill_fixed _)))
  refine ⟨.char '\n' :: Text.join "\n" ([] :: more), ?_⟩
  have hn : (("        " : Text) ++ regions .static ++ []).isBlank = (regions .static).isBlank := by
    simp [Text.isBlank, Text.ofChars, isSpace]
  rw [assemble, hs, staticLine, SkeletonLine.fill, slotText, hn]
  cases (regions .static).isBlank <;>
    simp [sourceHead, Text.join_cons_cons, Text.ofChars]

/-! ## Finding the block in the source -/

/-- The attributes of the generated function. -/
def boundAttributes (attributes : List Text) : List Text :=
  if attributes.isEmpty then ["[CmdletBinding()]"] else attributes

theorem isGroup_cmdletBinding : IsGroup .square "[CmdletBinding()]" := by
  refine ⟨"CmdletBinding()]", rfl, ?_⟩
  have hg : GroupRest .paren true [.char ')'] := .close
  exact GroupRest.ordinary (s := "CmdletBinding") (by decide) (fun _ => .group hg .close) true

theorem isGroup_boundAttributes {attributes : List Text}
    (h : ∀ a ∈ attributes, IsGroup .square a) :
    ∀ a ∈ boundAttributes attributes, IsGroup .square a := by
  unfold boundAttributes
  split
  · simpa using isGroup_cmdletBinding
  · exact h

theorem Text.isDashedChar_of_isDashedName {t : Text} (h : t.isDashedName = true) :
    t ≠ [] ∧ ∀ c ∈ t, isDashedChar c = true := by
  refine ⟨(by rintro rfl; cases h), fun c hc => ?_⟩
  obtain ⟨first, rest, hs⟩ := List.exists_cons_of_ne_nil (Text.splitOn_ne_nil '-' t)
  obtain ⟨hf, hr⟩ : first.isIdentifier = true ∧
      ∀ piece ∈ rest, (!piece.isEmpty && piece.all isNameChar) = true := by
    simpa [Text.isDashedName, hs] using h
  have hname : ∀ piece ∈ first :: rest, ∀ c ∈ piece, isNameChar c = true := by
    refine List.forall_mem_cons.2 ⟨Text.isNameChar_of_isIdentifier hf, fun piece hp => ?_⟩
    have := hr piece hp
    simp only [Bool.and_eq_true, List.all_eq_true] at this
    exact this.2
  rcases Text.mem_splitOn '-' hc with rfl | ⟨piece, hp, hc⟩
  · decide
  · rw [hs] at hp
    simp [isDashedChar, hname piece hp c hc]

/-- The name of a function is one word, and maybe a newline behind it. -/
theorem exists_word_of_isFunctionName {name : Text} (h : isFunctionName name = true) :
    ∃ word w, name = word ++ w ∧ word ≠ [] ∧ (∀ c ∈ word, isDashedChar c = true) ∧
      (w = [] ∨ w = [.char '\n']) := by
  simp only [isFunctionName, Text.upToFinalNewline, Bool.or_eq_true, Bool.and_eq_true,
    beq_iff_eq] at h
  rcases h with h | ⟨hl, h⟩
  · obtain ⟨hne, hc⟩ := Text.isDashedChar_of_isDashedName h
    exact ⟨name, [], by simp, hne, hc, .inl rfl⟩
  · obtain ⟨hne, hc⟩ := Text.isDashedChar_of_isDashedName h
    exact ⟨name.dropLast, [.char '\n'], (List.dropLast_append_getLast? _ hl).symm, hne, hc,
      .inr rfl⟩

/-- **The block of a generated function is found**, with its attributes. -/
theorem locateBlock_sourceHead {name : Text} {attributes : List Text}
    (hn : isFunctionName name = true) (ha : ∀ a ∈ attributes, IsGroup .square a) (r : Text) :
    locateBlock (sourceHead name attributes ++ .char '(' :: r) =
      .ok (some ⟨boundAttributes attributes, r⟩) := by
  obtain ⟨word, w, rfl, hne, hword, hw⟩ := exists_word_of_isFunctionName hn
  obtain ⟨c, word', rfl⟩ := List.exists_cons_of_ne_nil hne
  have hc := hword c (.head _)
  have hc₁ : c ≠ '(' := by rintro rfl; cases hc
  have hw₁ : Text.isBlank (w ++ [.char ' ']) = true ∧
      ∀ d ∈ List.head? (w ++ [.char ' ']), isCommandChar d = false := by
    rcases hw with rfl | rfl <;> exact ⟨rfl, by rintro d ⟨⟩; decide⟩
  let r₁ : Text := ("\n    " : Text) ++ (("param" : Text) ++ .char '(' :: r)
  let r₂ : Text := .char '\n' :: (bindingText attributes ++ r₁)
  have he : sourceHead (c :: word' ++ w) attributes ++ .char '(' :: r =
      ("function" : Text) ++ (([.char ' '] : Text) ++
        c :: (word' ++ (w ++ [.char ' '] ++ .char '\x7b' :: r₂))) := by
    simp [sourceHead, Text.ofChars, r₁, r₂]
  calc locateBlock (sourceHead (c :: word' ++ w) attributes ++ .char '(' :: r)
    _ = locateFrom [] false (c :: word' ++ (w ++ [.char ' '] ++ .char '\x7b' :: r₂)) := by
        rw [he]
        exact locateFrom_word (by decide) (by decide) rfl (by simp) (by rintro d ⟨⟩; decide)
          (isSpace_of_isDashedChar hc) hc₁
    _ = locateFrom [] false (.char '\x7b' :: r₂) :=
        locateFrom_word hne hword hw₁.1 (by simp) hw₁.2 rfl (by decide)
    _ = locateFrom [] false (bindingText attributes ++ r₁) := by
        rw [locateFrom_brace, locateFrom_space rfl]
    _ = locateFrom ([] ++ boundAttributes attributes) false r₁ :=
        locateFrom_attributes rfl (isGroup_boundAttributes ha)
    _ = .ok (some ⟨boundAttributes attributes, r⟩) := by
        rw [locateFrom_blank rfl, List.nil_append]
        exact locateFrom_keyword ⟨"param", [], rfl, rfl, rfl⟩

/-! ## Reading the source -/

theorem Text.mem_join {c : CodePoint} {sep t : Text} {ts : List Text} (hc : c ∈ t) :
    c ∈ Text.join sep (t :: ts) := by
  cases ts with
  | nil => rwa [Text.join_singleton]
  | cons t' ts =>
    rw [Text.join_cons_cons]
    exact List.mem_append_left _ hc

theorem isBlank_bindingText {attributes : List Text} (h : ∀ a ∈ attributes, IsGroup .square a) :
    (bindingText attributes).isBlank = false := by
  have hg := isGroup_boundAttributes h
  have hb : bindingText attributes =
      .join "\n" ((boundAttributes attributes).map (indentStep ++ ·)) :=
    rfl
  have hne : boundAttributes attributes ≠ [] := by
    unfold boundAttributes
    split
    · simp
    · rename_i he
      simpa using he
  obtain ⟨a, as, he⟩ := List.exists_cons_of_ne_nil hne
  obtain ⟨g, rfl, -⟩ := hg a (he ▸ .head _)
  rw [hb, he, List.map_cons]
  exact Text.isBlank_eq_false (c := .char '[')
    (Text.mem_join (List.mem_append_right _ (.head _))) rfl

/-- **The static declarations are read back** from the head of the function. -/
theorem readBlock_static {ss : List Text} {ps : List Parameter}
    (h : List.Forall₂ ParameterText ss ps) (tail : Text) :
    readBlock (.char '\n' :: (staticLine (.join ",\n        " ss) ++ (("    )" : Text) ++ tail))) =
      .ok ps := by
  cases h with
  | nil => exact readBlock_join (u := "\n") (w := []) (v := "    ") .nil rfl rfl rfl
  | @cons s p ss ps hs h =>
    have hb : (Text.join ",\n        " (s :: ss)).isBlank = false := by
      obtain ⟨c, r, rfl, hc⟩ := hs.head
      refine Text.isBlank_eq_false (c := c) (Text.mem_join (.head _)) ?_
      rcases hc with rfl | rfl <;> rfl
    have hr := readBlock_join (u := "\n        ") (w := "\n        ") (v := "\n    ") (r := tail)
      (.cons hs h) rfl rfl rfl
    refine Eq.trans (congrArg readBlock ?_) hr
    rw [staticLine, if_neg (by rw [hb]; decide)]
    change _ = ("\n        " : Text) ++ (Text.join ",\n        " (s :: ss) ++ _)
    simp [Text.ofChars]

theorem AttributesText.isGroup {s : Text} {as : List Text} (h : AttributesText s as) :
    ∀ a ∈ as, IsGroup .square a := by
  induction h with
  | nil => simp
  | cons hg _ _ ih => exact List.forall_mem_cons.2 ⟨hg, ih⟩

theorem DeclarationsText.parameterText {s : Text} {ps : List Parameter}
    (h : DeclarationsText s ps) : ∀ p ∈ ps, ParameterText p.extent p := by
  induction h with
  | nil => simp
  | last hs _ => simpa [hs.extent_eq] using hs
  | cons hs _ _ ih => exact List.forall_mem_cons.2 ⟨by rwa [hs.extent_eq], ih⟩

/-- The block that is left of a block in the generated function. -/
def ParamBlock.static (s : Settings) (b : ParamBlock) : ParamBlock :=
  { parameters := b.parameters.filter fun p => !p.isConditional s.marker
    attributes := boundAttributes b.attributes }

/-- **The source of the generated function reads as its static block.** -/
theorem ParamBlock.read_source {s : Settings} {b : ParamBlock}
    (ha : ∀ a ∈ b.attributes, IsGroup .square a)
    (hp : ∀ p ∈ b.parameters, ParameterText p.extent p) :
    Script.read (b.generate s).source = .ok { block := some (b.static s) } := by
  obtain ⟨tail, he⟩ :=
    assemble_eq s.functionName (b.generate s).emission.render (isBlank_bindingText ha)
  have hs : (b.generate s).emission.render .static =
      .join ",\n        " ((b.static s).parameters.map (·.extent)) := by
    refine congrArg (Text.join _) ((static_emit _ _ _).trans ?_)
    show (b.classify s).static = _
    rw [classify, classify_eq, static]
  have hf : List.Forall₂ ParameterText ((b.static s).parameters.map (·.extent))
      (b.static s).parameters := by
    rw [List.forall₂_map_left_iff, List.forall₂_same]
    exact fun p hm => hp p (List.mem_of_mem_filter hm)
  rw [Script.read, show (b.generate s).source = _ from he,
    locateBlock_sourceHead s.functionName_valid ha]
  simp only [hs, readBlock_static hf]
  rfl

/-- Generating from the static block gives no conditional parameter and the same static region. -/
theorem ParamBlock.generate_static (s : Settings) (b : ParamBlock) :
    ((b.static s).generate s).dynamic = [] ∧
      ((b.static s).generate s).emission.render .static =
        (b.generate s).emission.render .static := by
  refine ⟨?_, congrArg (Text.join _) ?_⟩
  · show ((b.static s).classify s).dynamic = []
    simp [classify, classify_eq, static, List.filter_filter]
  · refine ((static_emit _ _ _).trans ?_).trans (static_emit _ _ _).symm
    show ((b.static s).classify s).static = (b.classify s).static
    simp [classify, classify_eq, static, List.filter_filter]

/-- **A generated function is a script with the static declarations.** Reading its source gives the
declarations without a marker as they were, and the attributes of the block, or the default one.
Generating from it again leaves nothing conditional and the static region as it is. -/
theorem Script.read_generated (s : Settings) {t : Text} {script : Script} {g : Generated}
    (h : Script.read t = .ok script) (hg : script.generate? s = some g) :
    ∃ b, script.block = some b ∧ Script.read g.source = .ok { block := some (b.static s) } ∧
      ∃ g', Script.generate? s { block := some (b.static s) } = some g' ∧ g'.dynamic = [] ∧
        g'.emission.render .static = g.emission.render .static := by
  obtain ⟨b, hb, rfl⟩ := Option.map_eq_some_iff.1 hg
  obtain ⟨block⟩ := script
  cases hb
  obtain ⟨rest, hl, hr⟩ := Script.read_ok h
  obtain ⟨pre, kw, -, -, hp⟩ := locateFrom_ok hl
  obtain ⟨before, attributes, -, ha⟩ := hp.attributes
  obtain ⟨lead, body, rest, -, -, hd⟩ := readBlock_ok hr
  obtain ⟨h₁, h₂⟩ := ParamBlock.generate_static s b
  exact ⟨b, rfl, ParamBlock.read_source ha.isGroup hd.parameterText, _, rfl, h₁, h₂⟩

/-- A conditional declaration before a static one with a comment and a here-string in it. -/
theorem Script.read_generated_here_string :
    let t : Text := "param([Dynamic('$x')] $A, [int] # ,\n $B = @'\n'a', )\n'@ # b\n)"
    let a : Parameter :=
      { name := "A", extent := "[Dynamic('$x')] $A",
        annotations := [{ tag := "Dynamic", positional := ["'$x'"], extent := "[Dynamic('$x')]" }] }
    let b : Parameter :=
      { name := "B", default := some ("@'\n'a', )\n'@" : Text),
        extent := "[int] # ,\n $B = @'\n'a', )\n'@",
        annotations := [{ tag := "int", kind := .typeConstraint, extent := "[int]" }] }
    let script : Script := { block := some { parameters := [a, b] } }
    Script.read t = .ok script ∧ ∃ g, script.generate? {} = some g ∧
      Script.read g.source =
        .ok { block := some { parameters := [b], attributes := ["[CmdletBinding()]"] } } := by
  intro t a b script
  have h : Script.read t = .ok script := eq_ok_of_toOption (by decide +kernel)
  obtain ⟨block, hb, hr, -⟩ := Script.read_generated {} h rfl
  cases hb
  have hs : ParamBlock.static {} { parameters := [a, b] } =
      { parameters := [b], attributes := ["[CmdletBinding()]"] } := by decide +kernel
  exact ⟨h, _, rfl, hs ▸ hr⟩

end CondParam
