import CondParam.Script.Annotation
import CondParam.Script.Expression
import CondParam.Script.Variable

/-!
# Declarations

A parameter declaration is its annotations, its variable and, after an `=`, its default. The
declarations of a block are separated by commas; one more comma may stand behind the last.
-/

set_option autoImplicit false

namespace CondParam

/-- Reads the default behind the variable. The first `declared` characters of `t`, where the
declaration starts, are already read. -/
def readDefault (t : Text) (declared : Nat) (name : Text) (annotations : List Annotation) :
    Except ReadError (Read Parameter) :=
  match triviaLength (t.drop declared) with
  | .error f => .error (.fault f)
  | .ok s =>
    if (t.drop (declared + s)).head? = some (.char '=') then
      match triviaLength (t.drop (declared + s + 1)) with
      | .error f => .error (.fault f)
      | .ok s' =>
        let start := declared + s + 1 + s'
        match expressionReach true (t.drop start) with
        | .error f => .error (.fault f)
        | .ok reach =>
          if reach.text = 0 then .error (.fault ⟨.missingDefault, (t.drop start).length⟩)
          else .ok {
            value := { name, annotations, default := some ((t.drop start).take reach.text),
                       extent := t.take (start + reach.text) }
            length := start + reach.stop }
    else .ok { value := { name, annotations, extent := t.take declared }, length := declared + s }

/-- Reads a declaration. -/
def readParameter (t : Text) : Except ReadError (Read Parameter) :=
  match readAnnotations t with
  | .error e => .error e
  | .ok front =>
    match readVariable (t.drop front.length) with
    | .error f => .error (.fault f)
    | .ok name => readDefault t (front.length + name.length) name.value front.value

/-- Reads the declarations up to the parenthesis that closes the block; the text starts with no
trivia, and at its end the fault is `unclosed`. -/
def readDeclarations (unclosed : Fault) : Text → Except ReadError (List Parameter)
  | [] => .error (.fault unclosed)
  | c :: cs =>
    if c = ')' then .ok []
    else match readParameter (c :: cs) with
      | .error e => .error e
      | .ok first =>
        let rest := (c :: cs).drop first.length
        match triviaLength rest with
        | .error f => .error (.fault f)
        | .ok s =>
          match (rest.drop s).head? with
          | none => .error (.fault unclosed)
          | some (.char ')') => .ok [first.value]
          | some (.char ',') =>
            match triviaLength ((rest.drop s).drop 1) with
            | .error f => .error (.fault f)
            | .ok s' =>
              (readDeclarations unclosed (((rest.drop s).drop 1).drop s')).map
                (first.value :: ·)
          | some d => .error (.fault ⟨.expectedSeparator d, (rest.drop s).length⟩)
termination_by cs => cs.length
decreasing_by simp only [List.length_drop, List.length_cons]; omega

/-- Reads the declarations of a block from the text behind its opening parenthesis. -/
def readBlock (t : Text) : Except ReadError (List Parameter) :=
  match triviaLength t with
  | .error f => .error (.fault f)
  | .ok s => readDeclarations ⟨.unterminatedBlock, t.length + 1⟩ (t.drop s)

end CondParam
