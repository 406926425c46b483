import CondParam.Proofs.Regeneration

/-!
# Assembly is one substitution

The template is the skeleton as one text, with a token such as `@@NAME@@` for each slot. Expanding
it means to go through each line once, from the left, and put a text in place of each token; a line
that held a token and is blank then is left out. What is put in is not gone through again, so tokens
in it stay (`expand_token`). `assemble` does exactly that (`expandLines_source`), and its result is
the fixed text with the slots' texts between (`assemble_eq_functionText`).
-/

set_option autoImplicit false

namespace CondParam

/-! ## The template -/

namespace Slot

def all : List Slot := [.name, .binding] ++ Region.all.map .region

/-- The token that stands for a slot. -/
def token : Slot → Text
  | name => "@@NAME@@"
  | binding => "@@BINDING@@"
  | region .static => "@@STATIC@@"
  | region .registration => "@@REGISTRATION@@"
  | region .initialization => "@@INITIALIZATION@@"
  | region .pipeline => "@@PIPELINE@@"
  | region .diagnostics => "@@DIAGNOSTICS@@"

/-- The slot whose token stands at the front of a text. -/
def atFront? (t : Text) : Option Slot := all.find? fun s => s.token.isPrefixOf t

theorem atFront?_token (s : Slot) (r : Text) : atFront? (s.token ++ r) = some s := by
  cases s with
  | name | binding => rfl
  | region s => cases s <;> rfl

theorem exists_token_eq (s : Slot) : ∃ t, s.token = .char '@' :: t := by
  cases s with
  | name | binding => exact ⟨_, rfl⟩
  | region s => cases s <;> exact ⟨_, rfl⟩

theorem newline_notMem_token (s : Slot) : .char '\n' ∉ s.token := by
  cases s with
  | name | binding => decide
  | region s => cases s <;> decide

theorem atFront?_cons {c : CodePoint} (hc : c ≠ '@') (cs : Text) : atFront? (c :: cs) = none := by
  refine List.find?_eq_none.2 fun s _ => ?_
  obtain ⟨t, ht⟩ := s.exists_token_eq
  rw [ht, List.isPrefixOf_cons_cons, beq_eq_false_iff_ne.2 (Ne.symm hc)]
  simp

end Slot

/-- The skeleton as a text with tokens. -/
def template : Text :=
  .join "\n" ["function @@NAME@@ \x7b",
    "@@BINDING@@",
    "    param(",
    "        @@STATIC@@",
    "    )",
    [],
    "    DynamicParam \x7b",
    .concat ["        $RuntimeParameterDictionary = New-Object -TypeName ",
      "System.Management.Automation.RuntimeDefinedParameterDictionary"],
    "@@REGISTRATION@@",
    "        return $RuntimeParameterDictionary",
    "    \x7d",
    [],
    "    begin \x7b",
    "@@INITIALIZATION@@",
    "    \x7d",
    [],
    "    process \x7b",
    "@@PIPELINE@@",
    "@@DIAGNOSTICS@@",
    "    \x7d",
    "\x7d",
    []]

/-- Whether a token stands in the text. -/
def hasToken : Text → Bool
  | [] => false
  | c :: cs => (Slot.atFront? (c :: cs)).isSome || hasToken cs

/-- The text with each token replaced, in one pass from the left. -/
def expand (value : Slot → Text) : Text → Text
  | [] => []
  | c :: cs =>
    match Slot.atFront? (c :: cs) with
    | some s => value s ++ expand value (cs.drop (s.token.length - 1))
    | none => c :: expand value cs
termination_by t => t.length

/-- A line with its tokens replaced; none if it had some and is blank then. -/
def expandLine (value : Slot → Text) (line : Text) : Option Text :=
  if hasToken line then
    if (expand value line).isBlank then none else some (expand value line)
  else some line

/-- A text with its tokens replaced line by line. -/
def expandLines (value : Slot → Text) (t : Text) : Text :=
  .join "\n" ((List.splitOn (.char '\n') t).filterMap (expandLine value))

section
variable {value : Slot → Text} {s r : Text}

theorem expand_append (h : .char '@' ∉ s) : expand value (s ++ r) = s ++ expand value r := by
  induction s with
  | nil => rfl
  | cons c s ih =>
    obtain ⟨hc, hs⟩ := not_or.1 (mt List.mem_cons.2 h)
    rw [List.cons_append, expand, Slot.atFront?_cons (Ne.symm hc), ih hs]
    rfl

theorem hasToken_append (h : .char '@' ∉ s) : hasToken (s ++ r) = hasToken r := by
  induction s with
  | nil => rfl
  | cons c s ih =>
    obtain ⟨hc, hs⟩ := not_or.1 (mt List.mem_cons.2 h)
    rw [List.cons_append, hasToken, Slot.atFront?_cons (Ne.symm hc), ih hs]
    rfl

/-- **A token is replaced**, and the pass goes on behind it. -/
theorem expand_token (slot : Slot) :
    expand value (slot.token ++ r) = value slot ++ expand value r := by
  obtain ⟨t, ht⟩ := slot.exists_token_eq
  have hf := slot.atFront?_token r
  rw [ht, List.cons_append] at hf ⊢
  rw [expand, hf]
  simp only [ht, List.length_cons, Nat.add_sub_cancel, List.drop_left]

theorem hasToken_token (slot : Slot) : hasToken (slot.token ++ r) = true := by
  obtain ⟨t, ht⟩ := slot.exists_token_eq
  have hf := slot.atFront?_token r
  rw [ht, List.cons_append] at hf ⊢
  rw [hasToken, hf]
  rfl

end

/-! ## The skeleton as a template -/

namespace SkeletonLine

/-- The line with a token for its slot. -/
def source : SkeletonLine → Text
  | fixed t => t
  | slot before s after => before ++ (s.token ++ after)

/-- The fixed texts of a line. -/
def fixedTexts : SkeletonLine → List Text
  | fixed t => [t]
  | slot before _ after => [before, after]

/-- No token and no end of a line stands in the fixed texts. -/
def Plain (l : SkeletonLine) : Prop := ∀ t ∈ l.fixedTexts, .char '@' ∉ t ∧ .char '\n' ∉ t

instance (l : SkeletonLine) : Decidable l.Plain :=
  inferInstanceAs (Decidable (∀ t ∈ l.fixedTexts, .char '@' ∉ t ∧ .char '\n' ∉ t))

variable {l : SkeletonLine}

theorem newline_notMem_source (h : l.Plain) : .char '\n' ∉ l.source := by
  cases l with
  | fixed t => exact (h t (.head _)).2
  | slot before s after =>
    have hb := (h before (.head _)).2
    have ha := (h after (.tail _ (.head _))).2
    simp only [source, List.mem_append, not_or]
    exact ⟨hb, s.newline_notMem_token, ha⟩

/-- **Expanding the source of a line fills its slot.** -/
theorem expandLine_source (value : Slot → Text) (h : l.Plain) :
    expandLine value l.source = l.fill value := by
  cases l with
  | fixed t =>
    have ht := hasToken_append (r := []) (h t (.head _)).1
    rw [List.append_nil] at ht
    rw [source, expandLine, ht]
    rfl
  | slot before s after =>
    have hb := (h before (.head _)).1
    have ha : expand value (after ++ []) = after ++ expand value [] :=
      expand_append (h after (.tail _ (.head _))).1
    have he : expand value (before ++ (s.token ++ after)) = before ++ value s ++ after := by
      rw [expand_append hb, expand_token, ← List.append_nil after, ha, expand, List.append_nil,
        List.append_assoc]
    have ht : hasToken (before ++ (s.token ++ after)) = true := by
      rw [hasToken_append hb, hasToken_token]
    rw [source, expandLine, ht, he]
    rfl

end SkeletonLine

/-- **Expanding the source of a skeleton fills its slots.** -/
theorem expandLines_source (value : Slot → Text) {lines : List SkeletonLine} (hl : lines ≠ [])
    (h : ∀ l ∈ lines, l.Plain) :
    expandLines value (.join "\n" (lines.map (·.source))) =
      .join "\n" (lines.filterMap (·.fill value)) := by
  have hs : List.splitOn (.char '\n') (Text.join "\n" (lines.map (·.source))) =
      lines.map (·.source) := by
    refine List.splitOn_intercalate (CodePoint.char '\n') ?_ (mt List.map_eq_nil_iff.1 hl)
    exact List.forall_mem_map.2 fun l hm => SkeletonLine.newline_notMem_source (h l hm)
  rw [expandLines, hs, List.filterMap_map]
  exact congrArg _ (List.filterMap_congr fun l hm => SkeletonLine.expandLine_source value (h l hm))

theorem plain_skeleton : ∀ l ∈ skeleton, l.Plain := by decide +kernel

theorem template_eq : template = .join "\n" (skeleton.map (·.source)) := rfl

/-! ## The function written out -/

/-- A text and the end of its line. -/
def closedLine (t : Text) : Text := t ++ ("\n" : Text)

/-- The line of an inserted text; nothing if the line is blank. -/
def insertedLine (before t : Text) : Text :=
  if (before ++ t).isBlank then [] else closedLine (before ++ t)

/-- The generated function with the name, the attributes and the regions in their places. -/
def functionText (name : Text) (attributes : List Text) (regions : Region → Text) : Text :=
  .concat [closedLine (.concat ["function ", name, " \x7b"]),
    insertedLine [] (.join "\n" (attributes.map (("    " : Text) ++ ·))),
    closedLine "    param(",
    insertedLine "        " (regions .static),
    closedLine "    )",
    closedLine [],
    closedLine "    DynamicParam \x7b",
    closedLine (.concat ["        $RuntimeParameterDictionary = New-Object -TypeName ",
      "System.Management.Automation.RuntimeDefinedParameterDictionary"]),
    insertedLine [] (regions .registration),
    closedLine "        return $RuntimeParameterDictionary",
    closedLine "    \x7d",
    closedLine [],
    closedLine "    begin \x7b",
    insertedLine [] (regions .initialization),
    closedLine "    \x7d",
    closedLine [],
    closedLine "    process \x7b",
    insertedLine [] (regions .pipeline),
    insertedLine [] (regions .diagnostics),
    closedLine "    \x7d",
    closedLine "\x7d"]

section
variable (value : Slot → Text)

/-- What a line of the skeleton contributes. -/
def SkeletonLine.text (l : SkeletonLine) : Text := (l.fill value).elim [] closedLine

theorem SkeletonLine.text_fixed (t : Text) : (fixed t).text value = closedLine t := rfl

theorem SkeletonLine.text_slot (before : Text) (s : Slot) :
    (slot before s []).text value = insertedLine before (value s) := by
  rw [text, fill, insertedLine]
  simp only [List.append_nil]
  split <;> rfl

/-- Lines before an empty one end with a newline each. -/
theorem Text.join_newline (lines : List Text) :
    Text.join "\n" (lines ++ [[]]) = .concat (lines.map closedLine) := by
  induction lines with
  | nil => rfl
  | cons line lines ih =>
    have hne : lines ++ [[]] ≠ [] := by simp
    obtain ⟨next, more, hm⟩ := List.exists_cons_of_ne_nil hne
    rw [List.cons_append, hm, Text.join_cons_cons, ← hm, ih, List.map_cons, Text.concat_cons,
      closedLine, List.append_assoc]

theorem flatMap_text (lines : List SkeletonLine) :
    lines.flatMap (·.text value) =
      Text.concat ((lines.filterMap (·.fill value)).map closedLine) := by
  induction lines with
  | nil => rfl
  | cons l lines ih =>
    rw [List.flatMap_cons, ih, SkeletonLine.text]
    cases hl : l.fill value with
    | none => rw [List.filterMap_cons_none hl]; rfl
    | some t => rw [List.filterMap_cons_some hl]; rfl

end

/-- **The function is the fixed text with the slots' texts between.** -/
theorem assemble_eq_functionText (name : Text) (regions : Region → Text) (attributes : List Text) :
    assemble name regions attributes =
      functionText name (boundAttributes attributes) regions := by
  let value := slotText name regions attributes
  have hlast : skeleton = skeleton.dropLast ++ [.fixed []] := rfl
  have hlines : assemble name regions attributes = skeleton.dropLast.flatMap (·.text value) := by
    rw [assemble, hlast, List.filterMap_append, flatMap_text]
    exact Text.join_newline _
  have hfirst : (SkeletonLine.slot "function " .name " \x7b").text value =
      closedLine (.concat ["function ", name, " \x7b"]) := by
    rw [SkeletonLine.text, fill_slot rfl]
    simp [value, slotText]
  rw [hlines]
  simp only [skeleton, List.dropLast, List.flatMap_cons, List.flatMap_nil, hfirst,
    SkeletonLine.text_slot, SkeletonLine.text_fixed]
  rfl

/-- **Assembly is one verbatim substitution.** For every name, partial map of regions and list of
attributes the source is the template with its tokens replaced in one pass, line by line, which is
the fixed text with what was put in between, unchanged: the name, the attributes with four blanks
before each or the default one, and the regions. A line of its own is left out exactly if it is
blank. -/
theorem assemble_verbatim (name : Text) (regions : Region → Option Text) (attributes : List Text) :
    let source := assemble name (regionText regions) attributes
    source = expandLines (slotText name (regionText regions) attributes) template ∧
      source = functionText name (if attributes = [] then ["[CmdletBinding()]"] else attributes)
        fun r => (regions r).getD [] := by
  have hs : skeleton ≠ [] := List.cons_ne_nil _ _
  refine ⟨?_, ?_⟩
  · rw [template_eq, expandLines_source _ hs plain_skeleton]
    rfl
  · refine (assemble_eq_functionText name _ attributes).trans ?_
    simp only [boundAttributes, List.isEmpty_iff]
    rfl

example :
    expandLine (fun _ => "@@NAME@@ \\1\n") " @@STATIC@@;" =
      some (" @@NAME@@ \\1\n;" : Text) := by
  decide +kernel

end CondParam
