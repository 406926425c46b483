import CondParam.Script.Argument
import CondParam.Script.Trivia

/-!
# Annotations

`[tag]` and `[tag(arguments)]`. The tag is a name, in which dots and backticks may stand after the
first character, and any number of bracketed groups, as in `Dictionary[string, int]`.

A backtick at the end of the name escapes the bracket of such a group when the annotation is
measured, but not when the tag is read. The tag then takes the annotation's own closing bracket, and
whatever is asked of the text after it is asked past the annotation, or past the end of the text.
-/

set_option autoImplicit false

namespace CondParam

/-- The length of the name at the front of a tag; 0 if none stands there. -/
def tagNameLength : Text → Nat
  | [] => 0
  | c :: cs =>
    if isNameStart c then
      (cs.takeWhile fun d => isNameChar d || d == '.' || d == backtick).length + 1
    else 0

/-- The length of the square groups at the front of a text, read while more than `close` characters
are left. -/
def tagGroupsLength (close : Nat) : Text → Except Fault Nat
  | [] => .ok 0
  | c :: cs =>
    if c = '[' ∧ close < cs.length + 1 then
      match Bracket.square.groupTail cs with
      | .error f => .error f
      | .ok n => (tagGroupsLength close (cs.drop n)).map (· + (n + 1))
    else .ok 0
termination_by cs => cs.length
decreasing_by simp only [List.length_drop, List.length_cons]; omega

/-- What is known of an annotation once its tag is read: how many characters of it follow its
opening bracket, how many are left at its closing bracket, and the text behind the tag. -/
structure TagRead where
  tag : Text
  length : Nat
  close : Nat
  rest : Text
  deriving DecidableEq, Repr

/-- Measures an annotation and reads its tag. -/
def readTag (cs : Text) : Except Fault TagRead :=
  match Bracket.square.groupTail cs with
  | .error f => .error f
  | .ok n =>
    let close := (cs.drop (n - 1)).length
    let body := cs.dropWhile isSpace
    match tagNameLength body with
    | 0 => .error ⟨.expectedTag, body.length⟩
    | k =>
      match tagGroupsLength close (body.drop k) with
      | .error f => .error f
      | .ok m => .ok ⟨body.take (k + m), n, close, body.drop (k + m)⟩

/-- Where arguments stand behind a tag: nowhere, or behind a parenthesis, with the length of their
list up to its closing parenthesis. `close` characters are left at the bracket that closes the
annotation. -/
def argumentsAfterTag (close : Nat) (rest : Text) : Except ReadError (Option (Read Text)) :=
  let after := if rest.length < close then rest else rest.dropWhile isSpace
  if after.length = close then .ok none
  else match after with
    | [] => .error .overrun
    | c :: args =>
      if c = '(' then
        match Bracket.paren.groupTail args with
        | .error f => .error (.fault f)
        | .ok n =>
          if ((args.drop n).dropWhile isSpace).length = close then .ok (some ⟨args, n⟩)
          else .error (.fault ⟨.textAfterArguments, (args.drop n).length⟩)
      else .error (.fault ⟨.unexpectedText, after.length⟩)

/-- The annotation of a tag with the arguments in a list, or with none. -/
def annotationOf (tag extent : Text) : Option (Read Text) → Except ReadError Annotation
  | none => .ok { tag, kind := .typeConstraint, extent }
  | some list =>
    match splitArguments list with
    | .error f => .error (.fault f)
    | .ok arguments =>
      .ok { tag, kind := .attr, positional := positionalArguments arguments,
            named := namedArguments arguments, extent }

/-- Reads what follows the tag: nothing, or arguments in parentheses. -/
def readAfterTag (tag extent : Text) (close : Nat) (rest : Text) : Except ReadError Annotation :=
  match argumentsAfterTag close rest with
  | .error e => .error e
  | .ok list => annotationOf tag extent list

/-- Reads an annotation from the text behind its opening bracket. -/
def readAnnotation (cs : Text) : Except ReadError (Read Annotation) :=
  match readTag cs with
  | .error f => .error (.fault f)
  | .ok t => (readAfterTag t.tag ('[' :: cs.take t.length) t.close t.rest).map (⟨·, t.length⟩)

/-- Reads the annotations at the front of a text, with the trivia behind each. -/
def readAnnotations : Text → Except ReadError (Read (List Annotation))
  | [] => .ok ⟨[], 0⟩
  | c :: cs =>
    if c = '[' then
      match readAnnotation cs with
      | .error e => .error e
      | .ok first =>
        match triviaLength (cs.drop first.length) with
        | .error f => .error (.fault f)
        | .ok t =>
          (readAnnotations (cs.drop (first.length + t))).map fun rest =>
            ⟨first.value :: rest.value, rest.length + (first.length + t + 1)⟩
    else .ok ⟨[], 0⟩
termination_by cs => cs.length

end CondParam
