import CondParam.Proofs.Classification

/-!
# The attributes of a registration

The annotations of a declaration are markers, type constraints and all others (`SplitsByRole`). Each
of the others becomes an attribute: the registration constructs it, sets its named arguments and
adds it to the collection. `Collecting` carries out these entries, told by their texts, and refuses
to construct an attribute before the last one is added. A registration is carried out to its end and
collects the attributes of its annotations in order, with a plain parameter attribute behind them if
none of them is one (`Conditional.registersAttributes`).
-/

set_option autoImplicit false

namespace CondParam

/-! ## Annotations by role -/

/-- The tag is the marker in any case, with or without `Attribute` at its end. -/
def Annotation.IsMarker (marker : Text) (a : Annotation) : Prop :=
  a.tag.lower = marker.lower ∨ a.tag.lower = marker.lower ++ ("attribute" : Text)

/-- Annotations told apart: markers, type constraints and all others, each in order. -/
inductive SplitsByRole (marker : Text) :
    List Annotation → List Annotation → List Annotation → List Annotation → Prop
  | nil : SplitsByRole marker [] [] [] []
  | marker {a : Annotation} {as markers constraints generic : List Annotation} :
      a.IsMarker marker → SplitsByRole marker as markers constraints generic →
      SplitsByRole marker (a :: as) (a :: markers) constraints generic
  | typeConstraint {a : Annotation} {as markers constraints generic : List Annotation} :
      ¬ a.IsMarker marker → a.kind = .typeConstraint →
      SplitsByRole marker as markers constraints generic →
      SplitsByRole marker (a :: as) markers (a :: constraints) generic
  | generic {a : Annotation} {as markers constraints generic : List Annotation} :
      ¬ a.IsMarker marker → a.kind = .attr →
      SplitsByRole marker as markers constraints generic →
      SplitsByRole marker (a :: as) markers constraints (a :: generic)

theorem Annotation.role_eq_marker_iff {marker : Text} {a : Annotation} :
    a.role marker = .marker ↔ a.IsMarker marker := by
  simp only [role, IsMarker]
  split
  · rename_i h
    exact iff_of_true rfl h
  · rename_i h
    refine iff_of_false ?_ h
    cases a.kind <;> simp

theorem Annotation.role_of_not_isMarker {marker : Text} {a : Annotation}
    (h : ¬ a.IsMarker marker) :
    a.role marker = match a.kind with
      | .typeConstraint => .typeConstraint
      | .attr => .generic :=
  if_neg h

/-- **Nothing is lost**: every annotation has one role. -/
theorem splitsByRole (marker : Text) (as : List Annotation) :
    SplitsByRole marker as (as.filter (·.role marker = .marker))
      (as.filter (·.role marker = .typeConstraint)) (as.filter (·.role marker = .generic)) := by
  induction as with
  | nil => exact .nil
  | cons a as ih =>
    by_cases hm : a.IsMarker marker
    · have hr := Annotation.role_eq_marker_iff.2 hm
      simpa [List.filter_cons, hr] using .marker hm ih
    · have hr := Annotation.role_of_not_isMarker hm
      cases hk : a.kind with
      | typeConstraint =>
        rw [hk] at hr
        simpa [List.filter_cons, hr] using .typeConstraint hm hk ih
      | attr =>
        rw [hk] at hr
        simpa [List.filter_cons, hr] using .generic hm hk ih

/-! ## Attributes and their entries -/

/-- An attribute: how it is constructed, and what is set on it. -/
structure BuiltAttribute where
  construction : Text
  settings : List Text := []
  deriving DecidableEq, Repr

/-- A parameter attribute, under any of its names. -/
def BuiltAttribute.IsParameter (b : BuiltAttribute) : Prop :=
  ∃ tag arguments : Text,
    b.construction = .concat ["[", tag, "]::new(", arguments, ")"] ∧ tag.lower ∈ parameterTags

/-- The lines that build an attribute and add it to the collection. -/
def BuiltAttribute.lines (indent : Text) (b : BuiltAttribute) : List Text :=
  .concat [indent, "$Attribute = ", b.construction] ::
    b.settings.map (fun setting => .concat [indent, "$Attribute.", setting]) ++
    [.concat [indent, "$AttributeCollection.Add($Attribute)"]]

/-- The attribute of an annotation; an argument without a value is set to true. -/
def Annotation.built (a : Annotation) : BuiltAttribute :=
  { construction := .concat ["[", a.tag, "]::new(", .join ", " a.positional, ")"]
    settings := a.named.map fun n => .concat [n.name, " = ", n.value.getD "$true"] }

/-- A parameter attribute without arguments. -/
def plainParameter : BuiltAttribute := { construction := "[Parameter]::new()" }

/-- The attributes of annotations, with a plain parameter attribute if none of them is one. -/
def attributesOf (as : List Annotation) : List BuiltAttribute :=
  as.map (·.built) ++ if as.any (·.isParameterAttribute) then [] else [plainParameter]

theorem Annotation.constructionLine_eq (indent : Text) (a : Annotation) :
    a.constructionLine indent = .concat [indent, "$Attribute = ", a.built.construction] := by
  have hb : ("$Attribute = [" : Text) = ("$Attribute = " : Text) ++ ("[" : Text) := rfl
  simp only [constructionLine, built, Text.concat_cons, Text.concat_nil, hb, List.append_assoc,
    List.append_nil]

theorem NamedArgument.line_eq (indent : Text) (n : NamedArgument) :
    n.line indent =
      .concat [indent, "$Attribute.", .concat [n.name, " = ", n.value.getD "$true"]] := by
  simp only [line, Text.concat_cons, Text.concat_nil, List.append_nil]

theorem Annotation.lines_eq (indent : Text) (a : Annotation) :
    a.lines indent = a.built.lines indent := by
  simp only [lines, BuiltAttribute.lines, constructionLine_eq, NamedArgument.line_eq,
    addAttributeLine, built, List.map_map, Function.comp_def]

/-- One of the attributes is a parameter attribute. -/
theorem exists_isParameter (as : List Annotation) : ∃ b ∈ attributesOf as, b.IsParameter := by
  unfold attributesOf
  split
  -- Either an annotation says so, or the plain attribute is there.
  · rename_i h
    obtain ⟨a, ha, ht⟩ := List.any_eq_true.1 h
    exact ⟨a.built, List.mem_append_left _ (List.mem_map_of_mem ha), a.tag, _, rfl,
      List.contains_iff_mem.1 ht⟩
  · exact ⟨plainParameter, List.mem_append_right _ (List.mem_singleton_self _), "Parameter", [],
      rfl, by decide⟩

/-- What an entry of a registration does with an attribute. -/
inductive AttributeEntry where
  | construct (construction : Text)
  | set (setting : Text)
  | add
  deriving DecidableEq, Repr

namespace AttributeEntry

/-- The entry that a line of code is, if it is one. -/
def ofCode? (code : Text) : Option AttributeEntry :=
  if code = ("$AttributeCollection.Add($Attribute)" : Text) then some .add
  else match ("$Attribute = " : Text).isPrefixOf? code with
    | some construction => some (.construct construction)
    | none => (("$Attribute." : Text).isPrefixOf? code).map .set

/-- The entry that a line is, behind its indentation. -/
def ofLine? (indent line : Text) : Option AttributeEntry :=
  (indent.isPrefixOf? line).bind ofCode?

theorem ofLine?_append (indent code : Text) : ofLine? indent (indent ++ code) = ofCode? code := by
  rw [ofLine?, List.isPrefixOf?_eq_some_iff_append_eq.2 rfl]
  rfl

theorem ofCode?_cons {d : CodePoint} (hd : d ≠ '$') (s : Text) : ofCode? (d :: s) = none := by
  have hb : (CodePoint.char '$' == d) = false := beq_eq_false_iff_ne.2 (Ne.symm hd)
  have ha : d :: s ≠ ("$AttributeCollection.Add($Attribute)" : Text) := fun h =>
    hd (List.cons.inj h).1
  rw [ofCode?, if_neg ha]
  simp [Text.ofChars, List.isPrefixOf?, hb]

theorem ofLine?_concat (indent lead t : Text) :
    ofLine? indent (.concat [indent, lead, t]) = ofCode? (lead ++ t) := by
  rw [Text.concat_cons, ofLine?_append, Text.concat_cons, Text.concat_cons, Text.concat_nil,
    List.append_nil]

theorem ofLine?_construct (indent t : Text) :
    ofLine? indent (.concat [indent, "$Attribute = ", t]) = some (.construct t) := by
  rw [ofLine?_concat]
  rfl

theorem ofLine?_set (indent t : Text) :
    ofLine? indent (.concat [indent, "$Attribute.", t]) = some (.set t) := by
  rw [ofLine?_concat]
  rfl

theorem ofLine?_add (indent : Text) :
    ofLine? indent (.concat [indent, "$AttributeCollection.Add($Attribute)"]) = some .add := by
  rw [Text.concat_cons, ofLine?_append]
  rfl

/-- Entries are code. -/
theorem isCode_of_ofLine? {indent line : Text} {e : AttributeEntry}
    (h : ofLine? indent line = some e) : Conditional.IsCode indent line := by
  obtain ⟨code, hp, he⟩ := Option.bind_eq_some_iff.1 h
  obtain rfl := List.isPrefixOf?_eq_some_iff_append_eq.1 hp
  cases code with
  | nil => cases he
  | cons d s =>
    by_cases hd : d = '$'
    · exact ⟨s, by rw [hd]⟩
    · rw [ofCode?_cons hd] at he
      cases he

/-- A line around the guard is no entry. -/
theorem ofLine?_bodyIndent (c : Conditional) {d : CodePoint} (hd : d ≠ '$') (hb : d ≠ ' ')
    (s : Text) : ofLine? c.innerIndent (bodyIndent ++ d :: s) = none :=
  Option.eq_none_iff_forall_ne_some.2 fun _ he => (isCode_of_ofLine? he).ne hd hb s rfl

end AttributeEntry

/-- The entries that build an attribute and add it. -/
def BuiltAttribute.entries (b : BuiltAttribute) : List AttributeEntry :=
  .construct b.construction :: b.settings.map .set ++ [.add]

theorem BuiltAttribute.filterMap_lines (indent : Text) (b : BuiltAttribute) :
    (b.lines indent).filterMap (AttributeEntry.ofLine? indent) = b.entries := by
  have hs : (b.settings.map fun t => Text.concat [indent, "$Attribute.", t]).filterMap
      (AttributeEntry.ofLine? indent) = b.settings.map .set := by
    rw [List.filterMap_map, ← List.filterMap_eq_map]
    exact List.filterMap_congr fun t _ => AttributeEntry.ofLine?_set indent t
  rw [lines, List.cons_append, List.filterMap_cons_some (AttributeEntry.ofLine?_construct indent _),
    List.filterMap_append, hs, List.filterMap_cons_some (AttributeEntry.ofLine?_add indent)]
  rfl

/-! ## Collecting -/

/-- The attribute under construction, if there is one, and those in the collection. -/
structure Collecting where
  current : Option BuiltAttribute := none
  collection : List BuiltAttribute := []
  deriving DecidableEq, Repr

namespace Collecting

/-- What an entry leads to. An attribute is constructed when there is none under construction; with
one, it is set or added. -/
def next? (s : Collecting) : AttributeEntry → Option Collecting
  | .construct t =>
    match s.current with
    | none => some { s with current := some { construction := t } }
    | some _ => none
  | .set t => s.current.map fun b =>
    { s with current := some { b with settings := b.settings ++ [t] } }
  | .add => s.current.map fun b => { collection := s.collection ++ [b] }

/-- What entries lead to, in order. -/
def run? (s : Collecting) (entries : List AttributeEntry) : Option Collecting :=
  entries.foldlM next? s

theorem run?_append (s : Collecting) (es es' : List AttributeEntry) :
    s.run? (es ++ es') = (s.run? es).bind (·.run? es') :=
  List.foldlM_append

theorem run?_set (b : BuiltAttribute) (collection : List BuiltAttribute) (ts : List Text) :
    run? { current := some b, collection } (ts.map .set) =
      some { current := some { b with settings := b.settings ++ ts }, collection } := by
  -- Settings pile up on the attribute under construction, so the induction is over any of them.
  induction ts generalizing b with
  | nil => simp [run?]
  | cons t ts ih =>
    have hn : next? { current := some b, collection } (.set t) =
      some { current := some { b with settings := b.settings ++ [t] }, collection } := rfl
    have hr := ih { b with settings := b.settings ++ [t] }
    rw [List.append_assoc] at hr
    rw [List.map_cons, run?, List.foldlM_cons, hn]
    exact hr

/-- An attribute is built and added. -/
theorem run?_entries (b : BuiltAttribute) (collection : List BuiltAttribute) :
    run? { collection } b.entries = some { collection := collection ++ [b] } := by
  have hr : run? { collection } b.entries =
    run? { current := some { construction := b.construction }, collection }
      (b.settings.map .set ++ [.add]) := rfl
  rw [hr, run?_append, run?_set]
  rfl

/-- Attributes are built and added one after the other. -/
theorem run?_flatMap_entries (bs collection : List BuiltAttribute) :
    run? { collection } (bs.flatMap (·.entries)) = some { collection := collection ++ bs } := by
  induction bs generalizing collection with
  | nil => simp [run?]
  | cons b bs ih =>
    rw [List.flatMap_cons, run?_append, run?_entries, Option.bind_some, ih, List.append_assoc,
      List.singleton_append]

end Collecting

/-! ## Registrations -/

/-- A registration of attributes: their lines in order, between lines that are no entries. Carried
out, they leave exactly these attributes in the collection and none under construction. -/
structure RegistersAttributes (indent : Text) (attributes : List BuiltAttribute)
    (block : List Text) : Prop where
  lines : ∃ front back, block = front ++ attributes.flatMap (·.lines indent) ++ back ∧
    ∀ line ∈ front ++ back, AttributeEntry.ofLine? indent line = none
  collected : Collecting.run? {} (block.filterMap (AttributeEntry.ofLine? indent)) =
    some { collection := attributes }

/-- Lines without other entries than those of attributes register the attributes. -/
theorem registersAttributes_of_lines {indent : Text} {attributes : List BuiltAttribute}
    {front back : List Text}
    (h : ∀ line ∈ front ++ back, AttributeEntry.ofLine? indent line = none) :
    RegistersAttributes indent attributes
      (front ++ attributes.flatMap (·.lines indent) ++ back) := by
  refine ⟨⟨front, back, rfl, h⟩, ?_⟩
  have hf := List.filterMap_eq_nil_iff.2 fun line hl => h line (List.mem_append_left back hl)
  have hb := List.filterMap_eq_nil_iff.2 fun line hl => h line (List.mem_append_right front hl)
  have ha : (attributes.flatMap (·.lines indent)).filterMap (AttributeEntry.ofLine? indent) =
      attributes.flatMap (·.entries) := by
    simp only [List.filterMap_flatMap, BuiltAttribute.filterMap_lines]
  rw [List.filterMap_append, List.filterMap_append, hf, hb, ha, List.append_nil, List.nil_append]
  exact Collecting.run?_flatMap_entries attributes []

namespace Conditional

theorem flatMap_lines_attributesOf {c : Conditional}
    (h : c.hasParameterAttribute = c.annotations.any (·.isParameterAttribute)) :
    (attributesOf c.annotations).flatMap (·.lines c.innerIndent) =
      c.annotations.flatMap (·.lines c.innerIndent) ++ c.impliedAttributeLines := by
  rw [attributesOf, List.flatMap_append, List.flatMap_map]
  simp only [impliedAttributeLines, Annotation.lines_eq, h]
  split
  · rfl
  · rfl

/-- **A registration registers the attributes of its annotations.** -/
theorem registersAttributes {c : Conditional}
    (h : c.hasParameterAttribute = c.annotations.any (·.isParameterAttribute)) :
    RegistersAttributes c.innerIndent (attributesOf c.annotations) c.registrationLines := by
  have he : c.registrationLines =
      ([.concat [bodyIndent, "#region ", c.name]] ++ c.guardOpening ++
        [.concat [c.innerIndent, "$AttributeCollection = New-Object -TypeName ",
          nameLiteral attributeCollectionType]]) ++
      (attributesOf c.annotations).flatMap (·.lines c.innerIndent) ++
      ([.concat [c.innerIndent, "$RuntimeParameter = New-Object -TypeName ", runtimeParameterType,
          " -ArgumentList ", nameLiteral c.name, ", ([", c.resolvedType,
          "]), $AttributeCollection"],
        .concat [c.innerIndent, "$RuntimeParameterDictionary.Add(", nameLiteral c.name,
          ", $RuntimeParameter)"]] ++ c.guardClosing ++
        [.concat [bodyIndent, "#endregion ", c.name]]) := by
    rw [flatMap_lines_attributesOf h, registrationLines, registrationBody]
    simp only [List.append_assoc]
  rw [he]
  refine registersAttributes_of_lines fun line hl => ?_
  -- What stands around the guard starts with no variable; the other lines set other variables.
  simp only [guardOpening_eq, guardClosing_eq, List.mem_append, List.mem_ite_nil_left,
    List.mem_cons, List.not_mem_nil, or_false] at hl
  rcases hl with ((rfl | ⟨-, rfl⟩) | rfl) | (((rfl | rfl) | ⟨-, rfl⟩) | rfl)
  · exact AttributeEntry.ofLine?_bodyIndent c (by decide) (by decide) _
  · exact AttributeEntry.ofLine?_bodyIndent c (by decide) (by decide) _
  · exact (AttributeEntry.ofLine?_append _ _).trans rfl
  · exact (AttributeEntry.ofLine?_append _ _).trans rfl
  · exact (AttributeEntry.ofLine?_append _ _).trans rfl
  · exact AttributeEntry.ofLine?_bodyIndent c (by decide) (by decide) _
  · exact AttributeEntry.ofLine?_bodyIndent c (by decide) (by decide) _

end Conditional

/-- **Every annotation that is no marker and no type constraint is registered once**, whatever
stands around the parameter, and a parameter attribute is always registered. -/
theorem Parameter.registers_annotations (s : Settings) (p : Parameter)
    (h : ∃ a ∈ p.annotations, a.IsMarker s.marker) :
    ∃ c markers constraints block,
      (∀ report before after,
        (classify s report (before ++ p :: after)).dynamic =
          (classify s report before).dynamic ++ c :: (classify s report after).dynamic) ∧
      SplitsByRole s.marker p.annotations markers constraints c.annotations ∧
      (∀ e : Emission, (e.addRegistration c).registration = e.registration ++ block) ∧
      RegistersAttributes c.innerIndent (attributesOf c.annotations) block ∧
      ∃ b ∈ attributesOf c.annotations, b.IsParameter := by
  have hc : p.isConditional s.marker = true := by
    obtain ⟨a, ha, hm⟩ := h
    exact isConditional_iff.2 ⟨a, ha, Annotation.role_eq_marker_iff.2 hm⟩
  refine ⟨p.toConditional s.marker, p.withRole s.marker .marker,
    p.withRole s.marker .typeConstraint, (p.toConditional s.marker).registrationLines,
    fun report before after => ?_, splitsByRole s.marker p.annotations, fun e => ?_,
    Conditional.registersAttributes rfl, exists_isParameter _⟩
  · simp only [classify_eq, List.filter_append, List.filter_cons_of_pos hc, List.map_append,
      List.map_cons]
  · exact congrArg Emission.registration (e.apply_eq (.registration _))

/-- An alias is collected with its argument, and a parameter attribute behind it; a parameter
attribute of the declaration is collected with its setting, and no other behind it. -/
theorem Parameter.registers_annotations_alias :
    let m : Annotation := { tag := "dynamicAttribute" }
    let t : Annotation := { tag := "string", kind := .typeConstraint }
    let a : Annotation :=
      { tag := "Alias", positional := ["\x27B\x27"], named := [{ name := "Hidden" }] }
    let r : Annotation := { tag := "ParameterAttribute", named := [{ name := "Mandatory" }] }
    let p (x : Annotation) : Parameter := { name := "A", annotations := [t, x, m] }
    attributesOf [a] =
        [{ construction := "[Alias]::new(\x27B\x27)", settings := ["Hidden = $true"] },
          plainParameter] ∧
      attributesOf [r] =
        [{ construction := "[ParameterAttribute]::new()", settings := ["Mandatory = $true"] }] ∧
      ∀ x ∈ [a, r], (∃ y ∈ (p x).annotations, y.IsMarker "Dynamic") ∧
        ∃ c block, (classify {} {} [p x]).dynamic = [c] ∧ c.annotations = [x] ∧
          (∀ e : Emission, (e.addRegistration c).registration = e.registration ++ block) ∧
          Collecting.run? {} (block.filterMap (AttributeEntry.ofLine? c.innerIndent)) =
            some { collection := attributesOf [x] } := by
  intro m t a r p
  refine ⟨by decide +kernel, by decide +kernel, fun x hx => ?_⟩
  have hm : ∃ y ∈ (p x).annotations, y.IsMarker "Dynamic" :=
    ⟨m, List.mem_of_getLast? rfl, .inr (by decide +kernel)⟩
  obtain ⟨c, markers, constraints, block, hd, -, he, hr, -⟩ :=
    Parameter.registers_annotations {} (p x) hm
  have hp : (classify {} {} [p x]).dynamic = [c] := hd {} [] []
  have hc : c.annotations = [x] := by
    have hk : ∀ y ∈ [a, r], (classify {} {} [p y]).dynamic.map (·.annotations) = [[y]] := by
      decide +kernel
    have hx := hk x hx
    rw [hp] at hx
    exact (List.cons.inj hx).1
  have hb := hr.collected
  rw [hc] at hb
  exact ⟨hm, c, block, hp, hc, he, hb⟩

end CondParam
