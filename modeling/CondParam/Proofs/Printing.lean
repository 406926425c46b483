import CondParam.Proofs.ArgumentText
import CondParam.Proofs.Locate
import CondParam.Script.Read

/-!
# Printing and reading declarations

A block is printed from its declarations with blanks of one's choice (`Spacing`): in front of the
variable, around each `=` and behind each comma. The texts that a declaration is made of must be
well formed, no positional argument may read as a named one, and a value must be set apart from the
`=` before it. Then the printed block reads back (`Script.read_printBlock`).
-/

set_option autoImplicit false

namespace CondParam

/-! ## Printing -/

/-- Where blanks stand in printed declarations. -/
structure Spacing where
  /-- Behind an annotation. -/
  annotation : Text
  /-- Before an `=`. -/
  before : Text
  /-- Behind an `=`. -/
  after : Text
  /-- Behind a comma. -/
  comma : Text
  isBlank_annotation : annotation.isBlank = true
  isBlank_before : before.isBlank = true
  isBlank_after : after.isBlank = true
  isBlank_comma : comma.isBlank = true

/-- One blank everywhere. -/
def Spacing.single : Spacing := ⟨" ", " ", " ", " ", rfl, rfl, rfl, rfl⟩

namespace Spacing

variable (s : Spacing)

/-- An `=` and the value behind it. -/
def assign : Option Text → Text
  | none => []
  | some v => s.before ++ .char '=' :: (s.after ++ v)

/-- The texts with commas between them. -/
def commas (ts : List Text) : Text := .join (.char ',' :: s.comma) ts

end Spacing

/-- A named argument as printed. -/
def NamedArgument.print (s : Spacing) (a : NamedArgument) : Text := a.name ++ s.assign a.value

def Argument.print (s : Spacing) : Argument → Text
  | positional e => e
  | named a => a.print s

namespace Annotation

variable (s : Spacing)

/-- The arguments of an annotation, the positional ones first. -/
def arguments (a : Annotation) : List Argument :=
  a.positional.map .positional ++ a.named.map .named

/-- What is printed behind the tag. -/
def printArguments (a : Annotation) : Text :=
  match a.kind with
  | .typeConstraint => []
  | .attr => .char '(' :: (s.commas (a.arguments.map (·.print s)) ++ [.char ')'])

def print (a : Annotation) : Text := .char '[' :: (a.tag ++ (a.printArguments s ++ [.char ']']))

/-- The annotation with the printed text as its extent. -/
def printed (a : Annotation) : Annotation := { a with extent := a.print s }

end Annotation

namespace Parameter

variable (s : Spacing)

def print (p : Parameter) : Text :=
  .concat (p.annotations.map fun a => a.print s ++ s.annotation) ++
    (.char '$' :: p.name ++ s.assign p.default)

/-- The parameter with the printed texts as the extents of it and its annotations. -/
def printed (p : Parameter) : Parameter :=
  { p with annotations := p.annotations.map (·.printed s), extent := p.print s }

end Parameter

/-- A block without attributes. -/
def printBlock (s : Spacing) (ps : List Parameter) : Text :=
  ("param(" : Text) ++ (s.commas (ps.map (·.print s)) ++ [.char ')'])

/-! ## Well-formed declarations -/

/-- A named argument has an identifier as its name. -/
structure NamedArgument.WellFormed (a : NamedArgument) : Prop where
  name : a.name.isIdentifier = true
  value : ∀ v ∈ a.value, WellFormedExpression v

/-- No positional argument reads as a named one. -/
def Argument.WellFormed : Argument → Prop
  | positional e => WellFormedExpression e ∧ e.isIdentifier = false ∧ ¬ StartsAssignment e
  | named a => a.WellFormed

/-- The tag is a dotted name and square groups, and a type constraint has no arguments. -/
structure Annotation.WellFormed (a : Annotation) : Prop where
  tag : ∃ name groups : Text, a.tag = name ++ groups ∧ name.isDottedName = true ∧
    tagGroupsLength 0 groups = .ok groups.length
  constraint : a.kind = .typeConstraint → a.positional = [] ∧ a.named = []
  arguments : ∀ x ∈ a.arguments, x.WellFormed

structure Parameter.WellFormed (p : Parameter) : Prop where
  name : p.name.isIdentifier = true
  annotations : ∀ a ∈ p.annotations, a.WellFormed
  default : ∀ d ∈ p.default, WellFormedExpression d

/-- The value of the argument is set apart from its `=`: a blank stands between them, or the value
does not start with an `=` of its own, which would make a comparison of the two. -/
def NamedArgument.SetApart (s : Spacing) (a : NamedArgument) : Prop :=
  s.after = [] → ∀ v ∈ a.value, v.head? ≠ some (.char '=')

/-! ## Arguments -/

theorem NamedArgument.SetApart.head?_ne {s : Spacing} {a : NamedArgument} {v : Text}
    (h : a.SetApart s) (hv : a.value = some v) : (s.after ++ v).head? ≠ some (.char '=') := by
  cases hw : s.after with
  | nil => exact h hw v hv
  | cons c w =>
    have hc : isSpace c = true := Text.isBlank_iff.1 s.isBlank_after c (hw ▸ .head _)
    rintro ⟨⟩
    cases hc

namespace NamedArgument.WellFormed

variable {s : Spacing} {a : NamedArgument} (h : a.WellFormed)

include h

theorem codeText (fresh : Bool) : CodeText fresh (a.print s) := by
  refine CodeText.append (ordinary_of_isIdentifier h.name) ?_ fresh
  cases hv : a.value with
  | none => exact fun _ => .nil
  | some v =>
    refine CodeText.append (ordinary_of_isBlank s.isBlank_before) fun _ => ?_
    refine .ordinary (by decide) (by decide) ?_
    exact CodeText.append (ordinary_of_isBlank s.isBlank_after) (h.value v hv).codeText

theorem head_print : a.print s ≠ [] ∧ ∀ c ∈ (a.print s).head?, isSpace c = false := by
  obtain ⟨c, t, hn, hc, -⟩ := Text.exists_of_isIdentifier h.name
  rw [NamedArgument.print, hn]
  refine ⟨by simp, ?_⟩
  rintro d ⟨⟩
  exact isSpace_of_isNameChar (isNameChar_of_isNameStart hc)

theorem strip_print : (a.print s).strip = a.print s := by
  refine Text.strip_eq_self_iff.2 ⟨h.head_print.2, ?_⟩
  cases hv : a.value with
  | none =>
    rw [NamedArgument.print, hv]
    simpa [Spacing.assign] using (Text.strip_eq_self_iff.1 (Text.isIdentifier_strip h.name)).2
  | some v =>
    have hw := h.value v hv
    have he : a.print s = a.name ++ s.before ++ .char '=' :: s.after ++ v := by
      simp [NamedArgument.print, hv, Spacing.assign]
    rw [he, List.getLast?_append_of_ne_nil _ hw.ne_nil]
    exact hw.last_notSpace

/-- A named argument is read back. -/
theorem readArgument {w : Text} (ha : a.SetApart s) (hw : w.isBlank = true) :
    readArgument (w ++ a.print s) = .ok (.named a) := by
  have hs : (w ++ a.print s).strip = a.print s :=
    (Text.strip_append_of_isBlank hw).trans h.strip_print
  have hne : (a.print s).isEmpty = false := by simpa using h.head_print.1
  obtain ⟨name, value⟩ := a
  cases value with
  | none =>
    have he : (NamedArgument.mk name none).print s = name := by
      simp [NamedArgument.print, Spacing.assign]
    have ha : ¬ StartsAssignment name := by
      rintro ⟨name', w, r, rfl, -⟩
      have := Text.isNameChar_of_isIdentifier h.name (.char '=') (by simp)
      cases this
    rw [he] at hs hne
    simp [CondParam.readArgument, he, hs, hne, splitAssignment?_eq_none ha, h.name]
  | some v =>
    have hv := h.value v rfl
    have hh := ha.head?_ne rfl
    have hv₀ : v.isEmpty = false := by simpa using hv.ne_nil
    have ha : splitAssignment? ((NamedArgument.mk name (some v)).print s) = some (name, v) := by
      have ha := splitAssignment?_assign h.name s.isBlank_before hh
      rwa [Text.strip_append_of_isBlank s.isBlank_after, hv.strip_eq] at ha
    simp [CondParam.readArgument, hs, hne, ha, hv₀]

end NamedArgument.WellFormed

/-- A value that is not set apart is lost: the two `=` are a comparison. -/
example : readArgument "N==1" = .ok (.positional "N==1") := by decide +kernel

namespace Argument.WellFormed

variable {s : Spacing} {x : Argument} (h : x.WellFormed)

include h

theorem codeText (fresh : Bool) : CodeText fresh (x.print s) := by
  cases x with
  | positional e => exact h.1.codeText fresh
  | named a => exact NamedArgument.WellFormed.codeText h fresh

theorem head_print : x.print s ≠ [] ∧ ∀ c ∈ (x.print s).head?, isSpace c = false := by
  cases x with
  | positional e => exact ⟨h.1.ne_nil, h.1.head_notSpace⟩
  | named a => exact NamedArgument.WellFormed.head_print h

/-- An argument is read back from the piece that holds it. -/
theorem readArgument_piece {p : Piece} (hx : ∀ a, x = .named a → a.SetApart s)
    (hp : p.Holds (x.print s)) : readArgument p.text = .ok x := by
  obtain ⟨w, hw, he⟩ := hp
  rw [he]
  cases x with
  | positional e => exact readArgument_positional hw h.1 h.2.1 h.2.2
  | named a => exact NamedArgument.WellFormed.readArgument h (hx a rfl) hw

end Argument.WellFormed

theorem readArguments_of_holds {s : Spacing} {pieces : List Piece} {args : List Argument}
    (h : List.Forall₂ Piece.Holds pieces (args.map (·.print s)))
    (hr : ∀ x ∈ args, ∀ p : Piece, p.Holds (x.print s) → readArgument p.text = .ok x) :
    List.Forall₂ (fun p x => readArgument p.text = .ok x) pieces args := by
  induction args generalizing pieces with
  | nil =>
    cases h
    exact .nil
  | cons x args ih =>
    obtain ⟨hx, hargs⟩ := List.forall_mem_cons.1 hr
    cases h with
    | cons hp h => exact .cons (hx _ hp) (ih h hargs)

/-! ## Annotations -/

theorem TagGroups.groupRest {b : Bracket} {r groups : Text} (hg : TagGroups groups)
    (h : ∀ fresh, GroupRest b fresh r) : ∀ fresh, GroupRest b fresh (groups ++ r) := by
  induction hg with
  | nil => exact h
  | cons hg _ ih =>
    obtain ⟨g, rfl, hg⟩ := hg
    intro fresh
    rw [List.append_assoc, List.cons_append]
    exact .group hg (ih _)

theorem Text.isDottedName_cons {c : CodePoint} {cs : Text} :
    Text.isDottedName (c :: cs) = true ↔
      isNameStart c = true ∧ ∀ d ∈ cs, isNameChar d = true ∨ d = '.' := by
  simp [Text.isDottedName]

theorem Text.notMem_of_isDottedName {name : Text} (h : name.isDottedName = true) :
    ∀ c ∈ name, c ∉ lexicalMarks := by
  cases name with
  | nil => cases h
  | cons c cs =>
    obtain ⟨hc, hcs⟩ := Text.isDottedName_cons.1 h
    refine List.forall_mem_cons.2 ⟨?_, fun d hd => ?_⟩
    · exact notMem_lexicalMarks_of_isNameChar (isNameChar_of_isNameStart hc)
    · rcases hcs d hd with hd | rfl
      · exact notMem_lexicalMarks_of_isNameChar hd
      · decide

theorem Text.isTagName_of_isDottedName {name : Text} (h : name.isDottedName = true) :
    IsTagName name := by
  cases name with
  | nil => cases h
  | cons c cs =>
    obtain ⟨hc, hcs⟩ := Text.isDottedName_cons.1 h
    refine ⟨c, cs, rfl, hc, fun d hd => ?_⟩
    rcases hcs d hd with hd | rfl
    · simp [isTagChar, hd]
    · decide

/-- A text that is measured as square groups up to its end consists of them. -/
theorem tagGroups_of_length {groups : Text} (h : tagGroupsLength 0 groups = .ok groups.length) :
    TagGroups groups := by
  obtain ⟨g, r, rfl, hl, hg⟩ := tagGroupsLength_ok h
  obtain rfl : r = [] := by simpa using hl
  rwa [List.append_nil]

theorem Annotation.positionalArguments_arguments (a : Annotation) :
    positionalArguments a.arguments = a.positional := by
  simp [positionalArguments, Annotation.arguments, List.filterMap_append, List.filterMap_map]

theorem Annotation.namedArguments_arguments (a : Annotation) :
    namedArguments a.arguments = a.named := by
  simp [namedArguments, Annotation.arguments, List.filterMap_append, List.filterMap_map]

/-- Printed arguments that are read back stand behind the tag. -/
theorem Annotation.afterTag_print {s : Spacing} {a : Annotation} {spans : List Span}
    (hk : a.kind = .attr)
    (hl : ArgumentList true spans (s.commas (a.arguments.map (·.print s)) ++ [.char ')']))
    (hf : List.Forall₂ (fun p x => readArgument p.text = .ok x) (argumentPieces spans)
      a.arguments) : AfterTag a.tag (a.print s) (a.printArguments s) (a.printed s) := by
  have he : a.printArguments s = ([] : Text) ++ .char '(' ::
      ((s.commas (a.arguments.map (·.print s)) ++ [.char ')']) ++ []) := by
    simp [hk, Annotation.printArguments]
  have ha : a.printed s =
      { tag := a.tag, kind := .attr, positional := positionalArguments a.arguments,
        named := namedArguments a.arguments, extent := a.print s } := by
    simp [hk, Annotation.printed, positionalArguments_arguments, namedArguments_arguments]
  rw [he, ha]
  exact .arguments rfl hl rfl hf

namespace Annotation.WellFormed

variable {s : Spacing} {a : Annotation} (h : a.WellFormed)

include h

theorem isTag : IsTag a.tag := by
  obtain ⟨name, groups, he, hn, hg⟩ := h.tag
  exact ⟨name, groups, he, Text.isTagName_of_isDottedName hn, tagGroups_of_length hg⟩

variable (hs : ∀ n ∈ a.named, n.SetApart s)

include hs

/-- The printed arguments are read back. -/
theorem exists_spans : ∃ spans,
    ArgumentList true spans (s.commas (a.arguments.map (·.print s)) ++ [.char ')']) ∧
    List.Forall₂ (fun p x => readArgument p.text = .ok x) (argumentPieces spans) a.arguments := by
  have ha : ∀ x ∈ a.arguments, ∀ n, x = .named n → n.SetApart s := by
    rintro _ hx n rfl
    unfold Annotation.arguments at hx
    exact hs n (by simpa using hx)
  obtain ⟨spans, hl, hp⟩ := exists_argumentList (a.arguments.map (·.print s)) s.isBlank_comma
    (List.forall_mem_map.2 fun x hx => (h.arguments x hx).codeText)
    (List.forall_mem_map.2 fun x hx => (h.arguments x hx).head_print)
  exact ⟨spans, hl, readArguments_of_holds hp fun x hx p =>
    (h.arguments x hx).readArgument_piece (ha x hx)⟩

theorem groupRest_arguments (fresh : Bool) :
    GroupRest .square fresh (a.printArguments s ++ [.char ']']) := by
  unfold Annotation.printArguments
  split
  · exact .close
  · obtain ⟨spans, hl, -⟩ := h.exists_spans hs
    exact GroupRest.group hl.groupRest .close

theorem isGroup : IsGroup .square (a.print s) := by
  obtain ⟨name, groups, he, hn, hg⟩ := h.tag
  refine ⟨_, rfl, ?_⟩
  rw [he, List.append_assoc]
  refine GroupRest.ordinary (Text.notMem_of_isDottedName hn) ?_ true
  exact (tagGroups_of_length hg).groupRest (h.groupRest_arguments hs)

theorem afterTag : AfterTag a.tag (a.print s) (a.printArguments s) (a.printed s) := by
  cases hk : a.kind with
  | typeConstraint =>
    obtain ⟨hp, hn⟩ := h.constraint hk
    have he : a.printArguments s = [] := by simp [hk, Annotation.printArguments]
    have ha : a.printed s = { tag := a.tag, kind := .typeConstraint, extent := a.print s } := by
      simp [hk, hp, hn, Annotation.printed]
    rw [he, ha]
    exact .blank rfl
  | attr =>
    obtain ⟨spans, hl, hf⟩ := h.exists_spans hs
    exact Annotation.afterTag_print hk hl hf

/-- **A printed annotation is an annotation.** -/
theorem annotationText : AnnotationText (a.print s) (a.printed s) :=
  .mk (w := []) rfl h.isTag (h.isGroup hs) (h.afterTag hs)

end Annotation.WellFormed

/-! ## Declarations -/

namespace Parameter.WellFormed

variable {s : Spacing} {p : Parameter} (h : p.WellFormed)

include h

theorem defaultText : DefaultText (s.assign p.default) p.default := by
  cases hd : p.default with
  | none => exact .absent
  | some e =>
    have he := h.default e hd
    exact .present (.of_isBlank s.isBlank_before) (.of_isBlank s.isBlank_after) he.expressionText
      he.triviaLength_eq

variable (hs : ∀ a ∈ p.annotations, ∀ n ∈ a.named, n.SetApart s)

include hs

theorem annotationsText :
    AnnotationsText (.concat (p.annotations.map fun a => a.print s ++ s.annotation))
      (p.annotations.map (·.printed s)) := by
  have ha := h.annotations
  generalize p.annotations = as at ha hs
  induction as with
  | nil => exact .nil
  | cons a as ih =>
    obtain ⟨ha, has⟩ := List.forall_mem_cons.1 ha
    obtain ⟨hn, hns⟩ := List.forall_mem_cons.1 hs
    rw [List.map_cons, List.map_cons, Text.concat_cons, List.append_assoc]
    exact .cons (ha.annotationText hn) (.of_isBlank s.isBlank_annotation) (ih has hns)

/-- **A printed declaration is a declaration.** -/
theorem parameterText : ParameterText (p.print s) (p.printed s) :=
  .mk (h.annotationsText hs) (.plain h.name) h.defaultText

end Parameter.WellFormed

/-- **Printing, then reading, gives the declarations back.** -/
theorem Script.read_printBlock (s : Spacing) (ps : List Parameter) (h : ∀ p ∈ ps, p.WellFormed)
    (hs : ∀ p ∈ ps, ∀ a ∈ p.annotations, ∀ n ∈ a.named, n.SetApart s) :
    Script.read (printBlock s ps) =
      .ok { block := some { parameters := ps.map (·.printed s), attributes := [] } } := by
  have hp : List.Forall₂ ParameterText (ps.map (·.print s)) (ps.map (·.printed s)) := by
    rw [List.forall₂_map_left_iff, List.forall₂_map_right_iff, List.forall₂_same]
    exact fun p hp => (h p hp).parameterText (hs p hp)
  have hr : readBlock (s.commas (ps.map (·.print s)) ++ [.char ')']) = .ok (ps.map (·.printed s)) :=
    readBlock_join (u := []) (v := []) hp rfl s.isBlank_comma rfl
  have hk : IsKeyword "param" := ⟨"param", [], rfl, rfl, rfl⟩
  have hl : locateBlock (printBlock s ps) =
      .ok (some ⟨[], s.commas (ps.map (·.print s)) ++ [.char ')']⟩) := locateFrom_keyword hk
  rw [Script.read, hl]
  simp only [hr]
  rfl

/-- Commas in strings and groups, a value that starts with `=`, and a tag with groups. -/
theorem Script.read_printBlock_nested :
    let map : Annotation := { tag := "Map[string, [int]]", kind := .typeConstraint }
    let set : Annotation :=
      { tag := "My.Set", positional := ["'a, b'", "$x -eq 1"],
        named := [⟨"Strict", none⟩, ⟨"Check", some ("== (1, 2)" : Text)⟩] }
    let ps : List Parameter :=
      [{ name := "M", annotations := [set, map], default := some ("@\x7b a = '#' \x7d" : Text) },
       { name := "Last" }]
    (∀ p ∈ ps, p.WellFormed) ∧
      (∀ p ∈ ps, ∀ a ∈ p.annotations, ∀ n ∈ a.named, n.SetApart .single) ∧
      printBlock .single ps = ("param([My.Set('a, b', $x -eq 1, Strict, Check = == (1, 2))] " ++
        "[Map[string, [int]]] $M = @\x7b a = '#' \x7d, $Last)" : String) ∧
      Script.read (printBlock .single ps) =
        .ok { block := some { parameters := ps.map (·.printed .single), attributes := [] } } := by
  intro map set ps
  have hmap : map.WellFormed :=
    ⟨⟨"Map", "[string, [int]]", rfl, rfl, eq_ok_of_toOption (by decide +kernel)⟩,
      fun _ => ⟨rfl, rfl⟩, by simp [map, Annotation.arguments]⟩
  have hset : set.WellFormed := by
    refine ⟨⟨"My.Set", [], rfl, rfl, eq_ok_of_toOption (by decide +kernel)⟩, by simp [set], ?_⟩
    have h₁ : Argument.WellFormed (.positional "'a, b'") :=
      ⟨by decide +kernel, by decide, by decide +kernel⟩
    have h₂ : Argument.WellFormed (.positional "$x -eq 1") :=
      ⟨by decide +kernel, by decide, by decide +kernel⟩
    have h₃ : NamedArgument.WellFormed ⟨"Strict", none⟩ := ⟨rfl, by simp⟩
    have h₄ : NamedArgument.WellFormed ⟨"Check", some ("== (1, 2)" : Text)⟩ :=
      ⟨rfl, by rintro v ⟨⟩; decide +kernel⟩
    simpa [set, Annotation.arguments] using ⟨h₁, h₂, h₃, h₄⟩
  have h : ∀ p ∈ ps, p.WellFormed := by
    refine List.forall_mem_cons.2 ⟨⟨rfl, by simp [hmap, hset], ?_⟩, ?_⟩
    · rintro d ⟨⟩
      decide +kernel
    · simpa using ⟨rfl, by simp, by simp⟩
  have hs : ∀ p ∈ ps, ∀ a ∈ p.annotations, ∀ n ∈ a.named, n.SetApart .single :=
    fun _ _ _ _ _ _ he => by cases he
  exact ⟨h, hs, by decide +kernel, Script.read_printBlock .single ps h hs⟩

end CondParam
