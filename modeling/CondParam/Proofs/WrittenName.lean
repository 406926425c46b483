import CondParam.Proofs.Emission
import CondParam.Proofs.Variable
import Mathlib.Data.List.Basic

/-!
# Names as they are written

The generated function holds the names of parameters in two forms: as variables, and as strings in
single quotes. Here both are read back with the readers of scripts. A string is always read to its
closing quote and no further, and holds the name (`holdsName_nameLiteral`), so the pieces of a line
keep their meaning whatever the name is (`writesName_of_eq`). A variable gives the name or a front
of it: a brace in the name closes the variable too early (`readVariable_brace`), and a newline
behind an identifier passes for the end of it (`readVariable_newline`).
-/

set_option autoImplicit false

namespace CondParam

/-! ## Strings -/

/-- A text with one single quote for each two that stand together, from the front on. -/
def undoubleQuotes : Text → Text
  | [] => []
  | [c] => [c]
  | c :: d :: cs =>
    if c = '\x27' ∧ d = '\x27' then c :: undoubleQuotes cs else c :: undoubleQuotes (d :: cs)

/-- The place behind the string that opens at `start`; none if no string does. -/
def stringEnd (text : Text) (start : Nat) : Option (Except Fault Nat) :=
  match text.drop start with
  | [] => none
  | c :: cs => (stringTail? c cs).map (·.map (· + (start + 1)))

/-- From `start` to `stop` a string in single quotes stands, and `name` is what it has between its
outer quotes, each two quotes taken for one. -/
structure HoldsName (text : Text) (start stop : Nat) (name : Text) : Prop where
  opens : text[start]? = some (.char '\x27')
  ends : stringEnd text start = some (.ok stop)
  value : undoubleQuotes (text.extract (start + 1) (stop - 1)) = name

theorem undoubleQuotes_cons {c : CodePoint} (hc : c ≠ '\x27') (t : Text) :
    undoubleQuotes (c :: t) = c :: undoubleQuotes t := by
  cases t with
  | nil => rfl
  | cons d t => rw [undoubleQuotes, if_neg fun h => hc h.1]

/-- **Doubled quotes are told apart from all else.** -/
theorem undoubleQuotes_doubleQuotes (name : Text) : undoubleQuotes (doubleQuotes name) = name := by
  induction name with
  | nil => rfl
  | cons c name ih =>
    by_cases hc : c = '\x27'
    · rw [doubleQuotes, if_pos hc, undoubleQuotes, if_pos ⟨hc, hc⟩, ih]
    · rw [doubleQuotes, if_neg hc, undoubleQuotes_cons hc, ih]

theorem nameLiteral_injective : Function.Injective nameLiteral := by
  intro s t h
  have hd : doubleQuotes s = doubleQuotes t := List.append_cancel_right (List.cons.inj h).2
  rw [← undoubleQuotes_doubleQuotes s, hd, undoubleQuotes_doubleQuotes]

/-- The quotes of a name are doubled, so the next single one closes the string. -/
theorem quotedRest_doubleQuotes (name : Text) :
    QuotedRest '\x27' (doubleQuotes name ++ [.char '\x27']) := by
  induction name with
  | nil => exact .close
  | cons c name ih =>
    by_cases hc : c = '\x27'
    · rw [doubleQuotes, if_pos hc, hc]
      exact .double ih
    · rw [doubleQuotes, if_neg hc]
      exact .other hc (fun h => absurd h.1 (by decide)) ih

theorem length_nameLiteral (name : Text) :
    (nameLiteral name).length = (doubleQuotes name).length + 2 := by
  rw [nameLiteral, List.length_append, List.length_cons, List.length_singleton]

/-- **A name in quotes is one string**, wherever it stands, if no other quote touches its end. -/
theorem holdsName_nameLiteral (before name : Text) {after : Text}
    (h : after.head? ≠ some (.char '\x27')) :
    HoldsName (before ++ (nameLiteral name ++ after)) before.length
      (before.length + (nameLiteral name).length) name := by
  let tail : Text := doubleQuotes name ++ [.char '\x27']
  have hlit : nameLiteral name ++ after = .char '\x27' :: (tail ++ after) := rfl
  have hlen : (nameLiteral name).length = tail.length + 1 := by
    rw [length_nameLiteral, List.length_append, List.length_singleton]
  refine ⟨?_, ?_, ?_⟩
  · rw [List.getElem?_append_right (Nat.le_refl _), Nat.sub_self, hlit]
    rfl
  · have ht : quotedTail '\x27' (tail ++ after) = some tail.length :=
      (quotedRest_doubleQuotes name).quotedTail h
    have hs : stringTail? '\x27' (tail ++ after) = some (.ok tail.length) := by
      rw [stringTail?, if_pos (by decide), ht]
    rw [stringEnd, List.drop_left, hlit, hlen]
    simp only [hs, Option.map_some, Except.map]
    congr 2
    omega
  · have hd : (before ++ (nameLiteral name ++ after)).drop (before.length + 1) =
        doubleQuotes name ++ (.char '\x27' :: after) := by
      rw [← List.drop_drop, List.drop_left, hlit, List.drop_one, List.tail_cons, List.append_assoc]
      rfl
    have hn : before.length + (nameLiteral name).length - 1 - (before.length + 1) =
        (doubleQuotes name).length := by
      rw [length_nameLiteral]
      omega
    rw [List.extract_eq_take_drop, hd, hn, List.take_left, undoubleQuotes_doubleQuotes]

/-! ## Lines with a name -/

/-- The line is `pieces` with the name as a string between neighbours, and each of these strings is
read from the end of the piece before it to the start of the piece behind it. -/
structure WritesName (name : Text) (pieces : List Text) (line : Text) : Prop where
  line_eq : line = .join (nameLiteral name) pieces
  held : ∀ before after, pieces = before ++ after → before ≠ [] → after ≠ [] →
    let start := (Text.join (nameLiteral name) before).length
    HoldsName line start (start + (nameLiteral name).length) name

theorem Text.join_append (sep : Text) {before after : List Text} (hb : before ≠ [])
    (ha : after ≠ []) :
    Text.join sep (before ++ after) = Text.join sep before ++ (sep ++ Text.join sep after) := by
  induction before with
  | nil => exact absurd rfl hb
  | cons s before ih =>
    obtain ⟨s', after, rfl⟩ := List.exists_cons_of_ne_nil ha
    cases before with
    | nil => rw [Text.join_singleton, List.singleton_append, Text.join_cons_cons]
    | cons s'' before =>
      rw [List.cons_append, List.cons_append, Text.join_cons_cons, Text.join_cons_cons,
        ← List.cons_append, ih nofun, List.append_assoc, List.append_assoc]

/-- Pieces that do not start with a quote keep the strings between them apart. -/
theorem writesName_of_eq {name line piece : Text} {pieces : List Text}
    (h : ∀ s ∈ pieces, ∃ c t, s = c :: t ∧ c ≠ .char '\x27')
    (hl : line = .join (nameLiteral name) (piece :: pieces)) :
    WritesName name (piece :: pieces) line := by
  refine ⟨hl, fun before after he hb ha => ?_⟩
  obtain ⟨s, after, rfl⟩ := List.exists_cons_of_ne_nil ha
  obtain ⟨first, before, rfl⟩ := List.exists_cons_of_ne_nil hb
  have hs : s ∈ pieces := by
    rw [(List.cons.inj he).2]
    exact List.mem_append_right _ (.head _)
  obtain ⟨c, t, rfl, hc⟩ := h s hs
  have hhead : (Text.join (nameLiteral name) ((c :: t) :: after)).head? ≠ some (.char '\x27') := by
    cases after with
    | nil => simpa [Text.join_singleton] using hc
    | cons s' after => simpa [Text.join_cons_cons] using hc
  rw [hl, he, Text.join_append _ hb ha]
  exact holdsName_nameLiteral _ name hhead

namespace Conditional

variable (c : Conditional)

/-- The lines that make the parameter and add it to the dictionary hold its name. -/
theorem writesName_registration :
    (∃ line ∈ c.registrationLines, WritesName c.name
      [.concat [c.innerIndent, "$RuntimeParameter = New-Object -TypeName ", runtimeParameterType,
        " -ArgumentList "],
       .concat [", ([", c.resolvedType, "]), $AttributeCollection"]] line) ∧
    ∃ line ∈ c.registrationLines, WritesName c.name
      [.concat [c.innerIndent, "$RuntimeParameterDictionary.Add("], ", $RuntimeParameter)"]
      line := by
  constructor
  · refine ⟨_, ?_, writesName_of_eq (List.forall_mem_singleton.2 ⟨_, _, rfl, by decide⟩) rfl⟩
    rw [Text.join_cons_cons, Text.join_singleton]
    simp [registrationLines, registrationBody]
  · refine ⟨_, ?_, writesName_of_eq (List.forall_mem_singleton.2 ⟨_, _, rfl, by decide⟩) rfl⟩
    rw [Text.join_cons_cons, Text.join_singleton]
    simp [registrationLines, registrationBody]

/-- A line that tests for the bound value and looks it up holds the name twice. -/
theorem writesName_refreshLine_append (rest : Text) :
    WritesName c.name
      [.concat [bodyIndent, "if ($PSBoundParameters.ContainsKey("],
       .concat [")) \x7b ", variableRef c.name, " = $PSBoundParameters["],
       ("] \x7d" : Text) ++ rest]
      (c.refreshLine ++ rest) := by
  apply writesName_of_eq
  · exact List.forall_mem_cons.2 ⟨⟨_, _, rfl, by decide⟩,
      List.forall_mem_singleton.2 ⟨_, _, rfl, by decide⟩⟩
  · rw [Text.join_cons_cons, Text.join_cons_cons, Text.join_singleton]
    simp [refreshLine, boundTest, boundLookup, Text.ofChars]

end Conditional

/-- **A name in quotes cannot be broken out of.** The string ends with its closing quote, and gives
the name back; so the strings in the lines of a parameter end where the text behind them starts. -/
theorem nameLiteral_delimited :
    (∀ name r : Text, r.head? ≠ some (.char '\x27') →
      stringEnd (nameLiteral name ++ r) 0 = some (.ok (nameLiteral name).length)) ∧
    (∀ name, ∃ inner, nameLiteral name = .char '\x27' :: (inner ++ [.char '\x27']) ∧
      undoubleQuotes inner = name) ∧
    Function.Injective nameLiteral ∧
    ∀ c : Conditional,
      (∃ line ∈ c.registrationLines, WritesName c.name
        [.concat [c.innerIndent, "$RuntimeParameter = New-Object -TypeName ", runtimeParameterType,
          " -ArgumentList "],
         .concat [", ([", c.resolvedType, "]), $AttributeCollection"]] line) ∧
      (∃ line ∈ c.registrationLines, WritesName c.name
        [.concat [c.innerIndent, "$RuntimeParameterDictionary.Add("], ", $RuntimeParameter)"]
        line) ∧
      WritesName c.name
        [.concat [bodyIndent, "if ($PSBoundParameters.ContainsKey("],
         .concat [")) \x7b ", variableRef c.name, " = $PSBoundParameters["],
         .concat ["] \x7d else \x7b ", variableRef c.name, " = ", c.fallback, " \x7d"]]
        c.initializationLine ∧
      WritesName c.name
        [.concat [bodyIndent, "if ($PSBoundParameters.ContainsKey("],
         .concat [")) \x7b ", variableRef c.name, " = $PSBoundParameters["], "] \x7d"]
        c.refreshLine := by
  refine ⟨fun name r hr => ?_, fun name => ⟨doubleQuotes name, rfl, ?_⟩, nameLiteral_injective,
    fun c => ⟨c.writesName_registration.1, c.writesName_registration.2, ?_, ?_⟩⟩
  · have h := (holdsName_nameLiteral [] name hr).ends
    rwa [List.length_nil, Nat.zero_add] at h
  · exact undoubleQuotes_doubleQuotes name
  · exact c.writesName_refreshLine_append
      (.concat [" else \x7b ", variableRef c.name, " = ", c.fallback, " \x7d"])
  · have h := c.writesName_refreshLine_append []
    rwa [List.append_nil, List.append_nil] at h

/-- Quotes at both ends and two in the middle, with more text behind. -/
theorem nameLiteral_delimited_quotes :
    let name : Text := "'a''b'\n"
    let rest : Text := "]$'"
    nameLiteral name = "'''a''''b''\n'" ∧ rest.head? ≠ some (.char '\x27') ∧
      stringEnd (nameLiteral name ++ rest) 0 = some (.ok 13) ∧
      ∃ inner, nameLiteral name = .char '\x27' :: (inner ++ [.char '\x27']) ∧
        undoubleQuotes inner = name := by
  intro name rest
  have hr : rest.head? ≠ some (.char '\x27') := by decide
  obtain ⟨hends, hvalue, -⟩ := nameLiteral_delimited
  exact ⟨rfl, hr, hends name rest hr, hvalue name⟩

/-! ## Variables -/

theorem isSimpleName_iff {name : Text} :
    isSimpleName name = true ↔
      ∃ s : Text, s.isIdentifier = true ∧ (name = s ∨ name = s ++ [.char '\n']) := by
  simp only [isSimpleName, Text.upToFinalNewline, Bool.or_eq_true, Bool.and_eq_true, beq_iff_eq]
  constructor
  · rintro (h | ⟨hl, h⟩)
    · exact ⟨name, h, .inl rfl⟩
    · exact ⟨name.dropLast, h, .inr (List.dropLast_append_getLast? _ hl).symm⟩
  · rintro ⟨s, hs, rfl | rfl⟩
    · exact .inl hs
    · exact .inr ⟨by simp, by simpa using hs⟩

section
variable {name r : Text}

/-- A name that is written without braces has none. -/
theorem brace_notMem_of_isSimpleName (h : isSimpleName name = true) : .char '}' ∉ name := by
  obtain ⟨s, hs, hn⟩ := isSimpleName_iff.1 h
  have hb := brace_notMem_of_isIdentifier hs
  rcases hn with rfl | rfl
  · exact hb
  · simp [hb]

theorem readVariable_identifier (h : name.isIdentifier = true) (hr : EndsName r) :
    readVariable (variableRef name ++ r) = .ok ⟨name, (variableRef name).length⟩ := by
  have hv : variableRef name = .char '$' :: name := if_pos (isSimpleName_iff.2 ⟨name, h, .inl rfl⟩)
  rw [hv]
  exact (VariableText.plain h).readVariable hr

/-- The newline, though a part of the name, ends the variable. -/
theorem readVariable_newline (h : name.isIdentifier = true) (r : Text) :
    readVariable (variableRef (name ++ [.char '\n']) ++ r) = .ok ⟨name, name.length + 1⟩ := by
  have hv : variableRef (name ++ [.char '\n']) = .char '$' :: (name ++ [.char '\n']) :=
    if_pos (isSimpleName_iff.2 ⟨name, h, .inr rfl⟩)
  have hn : EndsName (.char '\n' :: r) := by
    rintro c ⟨⟩
    exact ⟨rfl, by decide⟩
  rw [hv, List.cons_append, List.append_assoc]
  exact (VariableText.plain h).readVariable hn

theorem variableRef_eq (h : isSimpleName name = false) :
    variableRef name = .char '$' :: .char '{' :: (name ++ [.char '}']) := by
  rw [variableRef, if_neg (by simp [h])]
  simp [Text.ofChars]

/-- A brace in the name closes the variable. -/
theorem readVariable_brace {s : Text} (hs : .char '}' ∉ s) (u r : Text) :
    readVariable (variableRef (s ++ .char '}' :: u) ++ r) = .ok ⟨s, s.length + 3⟩ := by
  have h : isSimpleName (s ++ .char '}' :: u) = false := by
    rw [← Bool.not_eq_true]
    exact fun h => brace_notMem_of_isSimpleName h (by simp)
  have he : variableRef (s ++ .char '}' :: u) ++ r =
      .char '$' :: .char '{' :: (s ++ .char '}' :: (u ++ .char '}' :: r)) := by
    simp [variableRef_eq h]
  rw [he]
  exact readVariable_braced hs _

/-- Without a brace and a newline in the wrong place all of the name is read. -/
theorem readVariable_whole (hb : .char '}' ∉ name)
    (hn : ¬ ∃ s : Text, s.isIdentifier = true ∧ name = s ++ [.char '\n']) (hr : EndsName r) :
    readVariable (variableRef name ++ r) = .ok ⟨name, (variableRef name).length⟩ := by
  cases h : isSimpleName name with
  | true =>
    obtain ⟨s, hs, rfl | hname⟩ := isSimpleName_iff.1 h
    · exact readVariable_identifier hs hr
    · exact absurd ⟨s, hs, hname⟩ hn
  | false =>
    rw [variableRef_eq h]
    exact (VariableText.braced hb).readVariable hr

end

/-- **A name can be read back from its variable** unless it has a closing brace, or is an identifier
and a newline. In these cases the variable gives what stands in front of the brace or of the
newline. -/
theorem readVariable_variableRef_iff (name r : Text)
    (hr : ∀ c ∈ r.head?, c = .char ' ' ∨ c = .char '\n') :
    (readVariable (variableRef name ++ r) = .ok ⟨name, (variableRef name).length⟩ ↔
      .char '}' ∉ name ∧ ¬ ∃ s : Text, s.isIdentifier = true ∧ name = s ++ [.char '\n']) ∧
    (∀ s u, .char '}' ∉ s → name = s ++ .char '}' :: u →
      readVariable (variableRef name ++ r) = .ok ⟨s, s.length + 3⟩) ∧
    ∀ s : Text, s.isIdentifier = true → name = s ++ [.char '\n'] →
      readVariable (variableRef name ++ r) = .ok ⟨s, s.length + 1⟩ := by
  have hends : EndsName r := by
    intro c hc
    rcases hr c hc with rfl | rfl
    · exact ⟨rfl, by decide⟩
    · exact ⟨rfl, by decide⟩
  refine ⟨⟨fun h => ⟨fun hm => ?_, ?_⟩, fun ⟨hb, hn⟩ => readVariable_whole hb hn hends⟩, ?_, ?_⟩
  · -- What was read is shorter than the name.
    obtain ⟨s, u, rfl, hs⟩ := List.eq_append_cons_of_mem hm
    rw [readVariable_brace hs] at h
    simp at h
  · rintro ⟨s, hs, rfl⟩
    rw [readVariable_newline hs] at h
    simp at h
  · rintro s u hs rfl
    exact readVariable_brace hs u r
  · rintro s hs rfl
    exact readVariable_newline hs r

/-- A name with a colon, one with a brace, and one with a newline at its end. -/
theorem readVariable_variableRef_iff_cases :
    let next : Text := "\n= 1"
    (∀ c ∈ next.head?, c = .char ' ' ∨ c = .char '\n') ∧
      readVariable (variableRef "a:b" ++ next) = .ok ⟨"a:b", 6⟩ ∧
      readVariable (variableRef "a\x7db" ++ next) = .ok ⟨"a", 4⟩ ∧
      readVariable (variableRef "ab\n" ++ next) = .ok ⟨"ab", 3⟩ := by
  intro next
  have hr : ∀ c ∈ next.head?, c = .char ' ' ∨ c = .char '\n' := by
    rintro c ⟨⟩
    exact .inr rfl
  have hc : ¬ ∃ s : Text, s.isIdentifier = true ∧ ("a:b" : Text) = s ++ [.char '\n'] := by
    rintro ⟨s, -, h⟩
    have := congrArg List.getLast? h
    simp at this
    cases this
  refine ⟨hr, (readVariable_variableRef_iff "a:b" next hr).1.2 ⟨by decide, hc⟩, ?_, ?_⟩
  · exact (readVariable_variableRef_iff "a\x7db" next hr).2.1 "a" "b" (by decide) rfl
  · exact (readVariable_variableRef_iff "ab\n" next hr).2.2 "ab" (by decide) rfl

end CondParam
