import CondParam.Command.Terminal
import CondParam.Text.Likeness

/-!
# Command-line arguments

Options are `--name value` or `--name=value`, flags take no value; two dashes alone end the options,
and one dash alone is an argument. Where options and arguments may be mixed they come in any order;
elsewhere the first argument ends the options. An option that does not exist may be a mistyped one,
so those that are like it are named with it.
-/

set_option autoImplicit false

namespace CondParam

structure OptionSpec where
  name : Text
  takesValue : Bool
  deriving DecidableEq, Repr

/-- What can be wrong with the arguments themselves. -/
inductive ArgumentError where
  | noSuchOption (name : Text) (similar : List Text)
  | needsValue (name : Text)
  | takesNoValue (name : Text)
  | extra (arguments : List Text)
  | nulInPath (name : Text)
  deriving DecidableEq, Repr

namespace ArgumentError

/-- What is wrong. -/
def message : ArgumentError → Text
  | noSuchOption name _ => .concat ["No such option: ", name.controlsEscaped]
  | needsValue name => .concat ["Option ", name.quoted, " requires an argument."]
  | takesNoValue name => .concat ["Option ", name.quoted, " does not take a value."]
  | extra arguments =>
    .concat ["Got unexpected extra argument(s) (", (Text.join " " arguments).controlsEscaped, ")"]
  | nulInPath name =>
    .concat ["Invalid value for ", name.quoted, ": Value error, embedded null byte"]

/-- The options that may have been meant, in order. -/
def hint : ArgumentError → Text
  | noSuchOption _ similar =>
    if similar.isEmpty then []
    else .concat [" (Possible options: ", .join ", " (similar.mergeSort Text.le), ")"]
  | _ => []

end ArgumentError

/-- An error, and what stands behind the argument at fault. -/
structure ArgumentFault where
  error : ArgumentError
  rest : List Text
  deriving DecidableEq, Repr

/-- Options in the order given, a flag with an empty value, and the arguments. -/
structure ParsedArguments where
  options : List (Text × Text) := []
  arguments : List Text := []
  deriving DecidableEq, Repr

namespace ParsedArguments

def addOption (name value : Text) (p : ParsedArguments) : ParsedArguments :=
  { p with options := (name, value) :: p.options }

def addArgument (t : Text) (p : ParsedArguments) : ParsedArguments :=
  { p with arguments := t :: p.arguments }

/-- The last value of an option. -/
def last? (p : ParsedArguments) (name : Text) : Option Text := p.options.reverse.lookup name

/-- The first of the given options, by its place on the command line, whose last value holds a NUL
character, which no path does. -/
def nulOption? (p : ParsedArguments) (names : List Text) : Option Text :=
  (p.options.map (·.1)).find? fun name =>
    names.contains name && (p.last? name).any (·.contains (.char '\x00'))

/-- Whether a flag is on: the last of the two names counts. -/
def flag (p : ParsedArguments) (on off : Text) : Bool :=
  (p.options.reverse.find? fun o => o.1 = on || o.1 = off).any (·.1 = on)

end ParsedArguments

/-- An option's name and the value behind an equals sign. -/
def splitOption (t : Text) : Text × Option Text :=
  let name := t.takeWhile (· ≠ .char '=')
  (name, if name.length < t.length then some (t.drop (name.length + 1)) else none)

/-- Whether an argument is an option: a dash and more. -/
def looksLikeOption (t : Text) : Bool := t.head? = some (.char '-') && 1 < t.length

/-- What is said of an unknown option: after one dash only its first letter counts, and nothing is
like it. -/
def unknownOption (specs : List OptionSpec) (t : Text) : ArgumentError :=
  if (t.drop 1).head? = some (.char '-') then
    let name := (splitOption t).1
    .noSuchOption name (name.closeMatches (specs.map (·.name)))
  else .noSuchOption (t.take 2) []

def parseArguments (specs : List OptionSpec) (mixed : Bool) :
    List Text → Except ArgumentFault ParsedArguments
  | [] => .ok {}
  | t :: ts =>
    if t = "--" then .ok { arguments := ts }
    else if looksLikeOption t then
      let (name, given) := splitOption t
      match specs.find? (·.name = name), given with
      | none, _ => .error ⟨unknownOption specs t, ts⟩
      | some ⟨_, true⟩, some value => (parseArguments specs mixed ts).map (·.addOption name value)
      | some ⟨_, true⟩, none =>
        match ts with
        | [] => .error ⟨.needsValue name, []⟩
        | value :: ts => (parseArguments specs mixed ts).map (·.addOption name value)
      | some ⟨_, false⟩, some _ => .error ⟨.takesNoValue name, ts⟩
      | some ⟨_, false⟩, none => (parseArguments specs mixed ts).map (·.addOption name [])
    else if mixed then (parseArguments specs mixed ts).map (·.addArgument t)
    else .ok { arguments := t :: ts }

end CondParam
