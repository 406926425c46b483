import CondParam.Proofs.PrintedList

/-!
# How arguments are split

The reader of an annotation measures the list of its arguments as a group (`argumentsReached`),
then cuts it at its commas and takes its comments out (`splitArguments`). The two agree: no item in
the list is at fault when it is cut, and the spans are the text of the list, down to its closing
parenthesis (`ArgumentList.source_eq`). There is one argument for each part between commas, its kept
text without the blanks around it, and none if nothing is kept (`map_strip_argumentPieces`).
-/

set_option autoImplicit false

namespace CondParam

/-! ## Up to the arguments -/

/-- Where the arguments of an annotation stand. -/
def argumentsReached (cs : Text) : Except ReadError (Option (Read Text)) :=
  match readTag cs with
  | .error f => .error (.fault f)
  | .ok t => argumentsAfterTag t.close t.rest

/-- **An annotation is read in two steps**: up to its arguments, and then these. -/
theorem exists_readAnnotation_eq (cs : Text) :
    ∃ tag extent n, readAnnotation cs =
      ((argumentsReached cs).bind (annotationOf tag extent)).map (⟨·, n⟩) := by
  unfold readAnnotation argumentsReached
  cases readTag cs with
  | error f => exact ⟨[], [], 0, rfl⟩
  | ok t =>
    refine ⟨t.tag, '[' :: cs.take t.length, t.length, congrArg (Except.map _) ?_⟩
    simp only [readAfterTag]
    cases argumentsAfterTag t.close t.rest <;> rfl

theorem argumentsAfterTag_some {close : Nat} {rest : Text} {list : Read Text}
    (h : argumentsAfterTag close rest = .ok (some list)) :
    .char '(' :: list.value <:+ rest ∧ Bracket.paren.groupTail list.value = .ok list.length := by
  have hs : (if rest.length < close then rest else rest.dropWhile isSpace) <:+ rest := by
    split
    · exact List.suffix_refl rest
    · exact List.dropWhile_suffix isSpace
  rcases argumentsAfterTag_cases rfl with ⟨-, h'⟩ | ⟨args, n, ha, hg, -, h'⟩ | ⟨-, h'⟩ | ⟨f, h'⟩
  · cases h'.symm.trans h
  · cases h'.symm.trans h
    exact ⟨ha ▸ hs, hg⟩
  · cases h'.symm.trans h
  · cases h'.symm.trans h

theorem argumentsReached_some {cs : Text} {list : Read Text}
    (h : argumentsReached cs = .ok (some list)) :
    .char '(' :: list.value <:+ cs ∧ Bracket.paren.groupTail list.value = .ok list.length := by
  unfold argumentsReached at h
  rcases readTag_cases cs with ⟨f, hf⟩ | ⟨g, r, w, name, groups, rest, rfl, -, ht, -, -, -, -, he⟩
  · rw [hf] at h
    cases h
  · rw [he] at h
    obtain ⟨hs, hl⟩ := argumentsAfterTag_some h
    rw [ht]
    exact ⟨hs.trans ((List.suffix_append _ _).trans (List.suffix_append _ _)), hl⟩

/-! ## Spans -/

/-- What is kept of a span: code. -/
def Span.kept : Span → Text
  | code t => t
  | comment _ => []
  | comma => []

/-- The kept text of spans one after another. -/
def keptText (spans : List Span) : Text := spans.flatMap Span.kept

/-- The texts of the arguments: what is kept between the commas, without the blanks around it. If
there is no comma and only blanks are kept there is no argument. -/
def argumentTexts (spans : List Span) : List Text :=
  if .comma ∉ spans ∧ (keptText spans).isBlank = true then []
  else (spans.splitOn .comma).map fun part => (keptText part).strip

/-- There is one part more than there are commas. -/
theorem length_splitOn_comma (spans : List Span) :
    (spans.splitOn .comma).length = spans.count .comma + 1 := by
  induction spans with
  | nil => rfl
  | cons span spans ih =>
    rw [List.splitOn_cons_eq_if_modifyHead, List.count_cons]
    split
    · rw [List.length_cons, ih]
    · rw [List.length_modifyHead, ih]

/-- The pieces are what is kept between the commas. -/
theorem map_text_piecesFrom (offset : Nat) (piece : Piece) (spans : List Span) :
    (piecesFrom offset piece spans).map (·.text) =
      ((spans.splitOn .comma).map keptText).modifyHead (piece.text ++ ·) := by
  induction spans generalizing offset piece with
  | nil => simp [piecesFrom, keptText]
  | cons span spans ih =>
    obtain ⟨part, parts, hp⟩ := List.exists_cons_of_ne_nil (List.splitOn_ne_nil .comma spans)
    rw [List.splitOn_cons_eq_if_modifyHead]
    rw [hp] at ih ⊢
    cases span with
    | code t => simp [piecesFrom, ih, keptText, Span.kept]
    | comment t => simp [piecesFrom, ih, keptText, Span.kept]
    | comma => simp [piecesFrom, ih, keptText]

/-- **One argument for each part between commas**, or none at all. -/
theorem map_strip_argumentPieces (spans : List Span) :
    (argumentPieces spans).map (·.text.strip) = argumentTexts spans := by
  have ht : (piecesFrom 0 ⟨0, []⟩ spans).map (·.text) = (spans.splitOn .comma).map keptText := by
    obtain ⟨part, parts, hp⟩ := List.exists_cons_of_ne_nil (List.splitOn_ne_nil .comma spans)
    rw [map_text_piecesFrom, hp]
    rfl
  have hs : (piecesFrom 0 ⟨0, []⟩ spans).map (·.text.strip) =
      (spans.splitOn .comma).map fun part => (keptText part).strip := by
    simpa only [List.map_map, Function.comp_def] using congrArg (List.map Text.strip) ht
  unfold argumentTexts
  by_cases hc : .comma ∈ spans
  · have hl := length_splitOn_comma spans
    have hpos := List.count_pos_iff.2 hc
    rw [if_neg fun h => h.1 hc, ← hs]
    unfold argumentPieces
    split
    · rename_i piece he
      have := congrArg List.length ht
      rw [he, List.length_map, List.length_map, hl, List.length_singleton] at this
      omega
    · rfl
  · rw [List.splitOn_eq_singleton hc] at ht hs
    obtain ⟨piece, he, hk⟩ := List.map_eq_singleton_iff.1 ht
    rw [List.splitOn_eq_singleton hc, ← hs, ← hk, he]
    unfold argumentPieces
    rw [he]
    simp only [hc, not_false_eq_true, true_and]
    split <;> rfl

theorem length_argumentTexts (spans : List Span) :
    (argumentTexts spans).length =
      if .comma ∉ spans ∧ (keptText spans).isBlank = true then 0 else spans.count .comma + 1 := by
  unfold argumentTexts
  split
  · rfl
  · rw [List.length_map, length_splitOn_comma]

/-! ## Arguments that are not read -/

/-- A name, an `=` and nothing but blanks for its value. -/
def LacksValue (x : Text) : Prop :=
  ∃ name w value : Text, x = name ++ (w ++ .char '=' :: value) ∧ name.isIdentifier = true ∧
    w.isBlank = true ∧ value.head? ≠ some (.char '=') ∧ value.isBlank = true

theorem lacksValue_iff {x : Text} :
    LacksValue x ↔ (splitAssignment? x).any (·.2.isEmpty) = true := by
  constructor
  · rintro ⟨name, w, value, rfl, hi, hw, hr, hv⟩
    rw [splitAssignment?_assign hi hw hr, Text.strip_eq_nil_iff.2 hv]
    rfl
  · intro h
    obtain ⟨⟨name, value⟩, hs, hv⟩ := (Option.any_eq_true _ _).1 h
    obtain ⟨name, w, r, rfl, hi, hw, hr⟩ := startsAssignment_iff.2 (Option.isSome_of_eq_some hs)
    rw [splitAssignment?_assign hi hw hr] at hs
    cases hs
    exact ⟨name, w, r, rfl, hi, hw, hr, Text.strip_eq_nil_iff.1 (List.isEmpty_iff.1 hv)⟩

instance (x : Text) : Decidable (LacksValue x) := decidable_of_iff _ lacksValue_iff.symm

/-- **What is no argument**: nothing, and a name without its value. -/
theorem readArgument_error_iff {x : Text} :
    (∃ reason, readArgument x = .error reason) ↔ x.strip = [] ∨ LacksValue x.strip := by
  rw [lacksValue_iff, ← List.isEmpty_iff]
  unfold readArgument
  cases hx : x.strip.isEmpty with
  | true => simp [hx]
  | false =>
    cases hs : splitAssignment? x.strip with
    | none => cases hi : x.strip.isIdentifier <;> simp [hx, hs, hi]
    | some pair => cases hv : pair.2.isEmpty <;> simp [hx, hs, hv]

theorem readArguments_error_iff {left : Nat} {pieces : List Piece} :
    (∃ f, readArguments left pieces = .error f) ↔
      ∃ p ∈ pieces, ∃ reason, readArgument p.text = .error reason := by
  induction pieces with
  | nil => simp [readArguments]
  | cons p pieces ih =>
    rw [readArguments, List.exists_mem_cons_iff, ← ih]
    cases readArgument p.text with
    | error reason => simp
    | ok a => cases readArguments left pieces <;> simp [Except.map]

theorem length_positional_add_named (args : List Argument) :
    (positionalArguments args).length + (namedArguments args).length = args.length := by
  rw [← (positionalFirst_perm args).length_eq, positionalFirst, List.length_append, List.length_map,
    List.length_map]

/-! ## The arguments of an annotation -/

/-- What is read of an annotation whose arguments are reached: these, or their fault. -/
theorem readAnnotation_of_reached {cs : Text} {list : Read Text}
    (h : argumentsReached cs = .ok (some list)) :
    (∃ f, splitArguments list = .error f ∧ readAnnotation cs = .error (.fault f)) ∨
    ∃ arguments tag extent n, splitArguments list = .ok arguments ∧
      readAnnotation cs = .ok ⟨{ tag, kind := .attr, positional := positionalArguments arguments,
                                 named := namedArguments arguments, extent }, n⟩ := by
  obtain ⟨tag, extent, n, he⟩ := exists_readAnnotation_eq cs
  rw [h] at he
  cases hs : splitArguments list with
  | error f =>
    refine .inl ⟨f, rfl, he.trans ?_⟩
    simp only [Except.bind, annotationOf, hs, Except.map]
  | ok arguments =>
    refine .inr ⟨arguments, tag, extent, n, rfl, he.trans ?_⟩
    simp only [Except.bind, annotationOf, hs, Except.map]

/-- The pieces are read as arguments one by one, each from its text. -/
theorem forall₂_isArgument {left : Nat} {spans : List Span} {arguments : List Argument}
    (h : readArguments left (argumentPieces spans) = .ok arguments) :
    List.Forall₂ IsArgument (argumentTexts spans) arguments := by
  rw [← map_strip_argumentPieces, List.forall₂_map_left_iff]
  exact (readArguments_eq_ok_iff.1 h).imp fun _ _ => readArgument_ok

theorem readArguments_argumentPieces_error_iff {left : Nat} {spans : List Span} :
    (∃ f, readArguments left (argumentPieces spans) = .error f) ↔
      ∃ x ∈ argumentTexts spans, x = [] ∨ LacksValue x := by
  rw [readArguments_error_iff, ← map_strip_argumentPieces]
  simp only [readArgument_error_iff, List.mem_map, exists_exists_and_eq_and]

/-- **Splitting agrees with measuring and loses nothing.** Where the arguments of an annotation are
reached, no scanner is at fault in them, and commas, comments and code one after another are their
text up to the closing parenthesis. There is one argument more than there are commas, or none if
nothing is kept. Reading fails exactly if one is empty or lacks its value, and otherwise gives the
positional and the named ones, each in order. -/
theorem readAnnotation_arguments_lossless {cs args : Text} {n : Nat}
    (h : argumentsReached cs = .ok (some ⟨args, n⟩)) :
    .char '(' :: args <:+ cs ∧
    ∃ spans, argumentSpans ((args.drop n).length + 1) true args = .ok spans ∧
      ArgumentList true spans (args.take n) ∧
      spans.flatMap Span.source = args.take (n - 1) ∧
      (argumentTexts spans).length =
        (if .comma ∉ spans ∧ (keptText spans).isBlank = true then 0
          else spans.count .comma + 1) ∧
      ((∃ f, readAnnotation cs = .error (.fault f)) ↔
        ∃ x ∈ argumentTexts spans, x = [] ∨ LacksValue x) ∧
      ((∀ x ∈ argumentTexts spans, x ≠ [] ∧ ¬ LacksValue x) →
        ∃ a length arguments, readAnnotation cs = .ok ⟨a, length⟩ ∧ a.kind = .attr ∧
          List.Forall₂ IsArgument (argumentTexts spans) arguments ∧
          a.positional = positionalArguments arguments ∧ a.named = namedArguments arguments ∧
          a.positional.length + a.named.length = (argumentTexts spans).length) := by
  obtain ⟨spans, hs, hl, hsource⟩ := exists_argumentSpans (argumentsReached_some h).2
  have hsplit := splitArguments_eq hs
  have herror : (∃ f, splitArguments ⟨args, n⟩ = .error f) ↔
      ∃ x ∈ argumentTexts spans, x = [] ∨ LacksValue x := by
    rw [hsplit]
    exact readArguments_argumentPieces_error_iff
  refine ⟨(argumentsReached_some h).1, spans, hs, hl, hsource, length_argumentTexts spans, ?_, ?_⟩
  · rw [← herror]
    rcases readAnnotation_of_reached h with ⟨f, hf, ha⟩ | ⟨arguments, tag, extent, m, hf, ha⟩
    · simp [hf, ha]
    · simp [hf, ha]
  · intro hx
    rcases readAnnotation_of_reached h with ⟨f, hf, -⟩ | ⟨arguments, tag, extent, m, hf, ha⟩
    · obtain ⟨x, hm, hbad⟩ := herror.1 ⟨f, hf⟩
      exact absurd hbad (not_or.2 (hx x hm))
    · have hargs := forall₂_isArgument (hsplit.symm.trans hf)
      refine ⟨_, m, arguments, ha, rfl, hargs, rfl, rfl, ?_⟩
      rw [length_positional_add_named, hargs.length_eq]

/-- Commas in a string, in a group and in a comment split nothing. -/
theorem readAnnotation_arguments_lossless_nested :
    let cs : Text := "Set('a,)' <#,]#>, (1, [int]2),Name = \"v,\" #,\n, Flag)] $A"
    let args : Text := "'a,)' <#,]#>, (1, [int]2),Name = \"v,\" #,\n, Flag)] $A"
    let texts : List Text := ["'a,)'", "(1, [int]2)", "Name = \"v,\"", "Flag"]
    argumentsReached cs = .ok (some ⟨args, 48⟩) ∧
      ∃ a length arguments, readAnnotation cs = .ok ⟨a, length⟩ ∧ a.kind = .attr ∧
        List.Forall₂ IsArgument texts arguments ∧ a.positional = positionalArguments arguments ∧
        a.named = namedArguments arguments ∧ a.positional.length + a.named.length = 4 := by
  intro cs args texts
  have h : argumentsReached cs = .ok (some ⟨args, 48⟩) := eq_ok_of_toOption (by decide +kernel)
  obtain ⟨-, spans, hs, -, -, -, -, hok⟩ := readAnnotation_arguments_lossless h
  have hspans : (argumentSpans ((args.drop 48).length + 1) true args).toOption.map argumentTexts =
      some texts := by decide +kernel
  rw [hs] at hspans
  rw [show argumentTexts spans = texts from Option.some.inj hspans] at hok
  exact ⟨h, hok (by decide +kernel)⟩

end CondParam
