import CondParam.Command.FileSystem
import CondParam.Command.Options
import CondParam.Command.Terminal
import CondParam.Config
import CondParam.Error
import CondParam.HostCheck
import CondParam.Json.Read
import CondParam.Json.Write
import CondParam.Response
import CondParam.Script.Read
import CondParam.Toml.Read

/-!
# The command line

`Invocation.run` is the whole program: from the file system, the arguments and the standard input to
what is printed, what is written and how it ends. Settings are looked at before the input is read,
and nothing is written before the function is complete.
-/

set_option autoImplicit false

namespace CondParam

def version : Text := "0.1.0"

/-- What is wrong with a command line. -/
inductive UsageError where
  | missingCommand
  /-- `similar` are the commands that may have been meant, the likeliest first. -/
  | noSuchCommand (name : Text) (similar : List Text)
  | arguments (e : ArgumentError) (similar : List Text)
  | twoSources
  | unreadable (shown : Text) (e : PathError) (path : PathName)
  | notJson
  deriving DecidableEq, Repr

/-- A message with the commands that may have been meant; one full stop divides the two. -/
def withCommands (similar : List Text) (message : Text) : Text :=
  if similar.isEmpty then message
  else
    let bare := (message.reverse.dropWhile (· == .char '.')).reverse
    .concat [bare, ". Did you mean ", .join ", " (similar.map Text.quoted), "?"]

def UsageError.message : UsageError → Text
  | missingCommand => "Missing command."
  | noSuchCommand name similar =>
    withCommands similar (.concat ["No such command ", name.quoted, "."])
  | arguments e similar => withCommands similar e.message ++ e.hint
  | twoSources => "Invalid value: Pass either SCRIPT or --ast, not both."
  | unreadable shown e path =>
    .concat ["Invalid value: Cannot read ", shown, ": ", e.message path]
  | notJson => "Invalid value: Invalid JSON payload:"

/-- Ends that no message foresees. -/
inductive Crash where
  | overrun
  | notUtf8
  | notEncodable
  | longNumeral
  | tooDeep
  | nulInPath
  | path (e : PathError)
  deriving DecidableEq, Repr

inductive Ending where
  | exit (code : Nat)
  | fatal (e : Error)
  | usage (e : UsageError)
  | crash (c : Crash)
  deriving DecidableEq, Repr

def Ending.code : Ending → Nat
  | exit code => code
  | fatal _ => 2
  | usage _ => 2
  | crash _ => 1

def Crash.remark : Crash → Text
  | overrun => "The script ends in the middle of an escape."
  | notUtf8 => "The input is not UTF-8."
  | notEncodable => "The output holds half of a surrogate pair."
  | longNumeral => "A number has too many digits."
  | tooDeep => "Values are nested too deeply."
  | nulInPath => "A path holds a NUL character."
  | path e => .concat ["Cannot write the output: ", e.description]

/-- What is said of an ending that has not printed its own message. -/
def Ending.remark : Ending → List Text
  | exit _ => []
  | fatal _ => []
  | usage e => [e.message]
  | crash c => [c.remark]

structure Invocation where
  files : FileSystem
  arguments : List Text
  stdin : Text := []
  /-- The host's check of a source. -/
  check : Text → CheckResult := fun _ => .skip

structure Outcome where
  ending : Ending
  stdout : Text := []
  stderr : Text := []
  files : FileSystem
  deriving DecidableEq

/-- Remarks as they are printed; no text is refused here. -/
def remarked (remarks : List Text) : Text := (printed remarks).halvesEscaped

/-- The outcome of a run that stops before anything is printed; a fatal error is. -/
def Ending.outcome (e : Ending) (fs : FileSystem) : Outcome where
  ending := e
  stderr := match e with
    | fatal error => remarked [error.message]
    | _ => []
  files := fs

/-- The text of a file, with newlines only; none if it is not UTF-8. -/
def decodeText (content : Bytes) : Option Text :=
  (String.fromUTF8? ⟨content.toArray⟩).map fun s => Text.unixNewlines s

/-- The bytes of a text; none if half of a surrogate pair stands alone in it. -/
def encodeText (t : Text) : Option Bytes :=
  t.chars?.map fun cs => (String.ofList cs).toUTF8.data.toList

/-- Paths that the system refuses to look at. -/
def PathName.hasNul (p : PathName) : Bool := p.text.contains (.char '\x00')

/-- The configuration in a file; one that is missing or malformed is empty. -/
def FileSystem.config (fs : FileSystem) (p : PathName) : Except Crash Data :=
  if p.hasNul then .error .nulInPath
  else match fs.read p with
    | .error _ => .ok (.table [])
    | .ok content => match decodeText content with
      | none => .ok (.table [])
      | some t => match Toml.read t with
        | .ok config => .ok config
        | .error .malformed => .ok (.table [])
        | .error .longNumeral => .error .longNumeral
        | .error .tooDeep => .error .tooDeep

/-- The configuration file: the given one, or the one under the root. -/
def configPath (config : Option PathName) (root : PathName) : PathName :=
  config.getD (root.child configName)

/-! ## Parts of a run -/

/-- The configuration file that the command line asks for. -/
def configFile (p : ParsedArguments) : PathName :=
  configPath ((p.last? "--config").map PathName.ofText) (.ofText ((p.last? "--root").getD "."))

/-- The settings that the configuration file and the command line give. -/
def Invocation.settings (i : Invocation) (p : ParsedArguments) : Except Ending Settings :=
  match i.files.config (configFile p) with
  | .error c => .error (.crash c)
  | .ok config =>
    let given : List (Text × Data) := [("function_name", .ofOption (p.last? "--name"))]
    (Settings.ofEntries (mergePayload given (generateSection config))).mapError fun
      | .settings e => .fatal (.settings e)
      | .longNumeral => .crash .longNumeral

/-- A file's text; `shown` is how the command line calls the file. -/
def Invocation.fileText (i : Invocation) (shown : Text) (path : PathName) : Except Ending Text :=
  if path.hasNul then .error (.crash .nulInPath)
  else match i.files.read path with
    | .error e => .error (.usage (.unreadable shown e path))
    | .ok content => match decodeText content with
      | none => .error (.crash .notUtf8)
      | some t => .ok t

/-- The script in a text. -/
def scriptOfText (t : Text) : Except Ending Script :=
  (Script.read t).mapError fun
    | .overrun => .crash .overrun
    | .fault f => .fatal (.script f.reason (f.position t))

/-- The script in a JSON payload. -/
def scriptOfJson (t : Text) : Except Ending Script :=
  match Json.read t with
  | .error .malformed => .error (.usage .notJson)
  | .error .longNumeral => .error (.crash .longNumeral)
  | .error .tooDeep => .error (.crash .tooDeep)
  | .ok data => match Script.ofData data with
    | .ok s => .ok s
    | .bad problems => .error (.fatal (.payload problems))

/-- The script from the file, the payload or the standard input. -/
def Invocation.script (i : Invocation) (p : ParsedArguments) : Except Ending Script :=
  match p.arguments.head?, p.last? "--ast" with
  | some _, some _ => .error (.usage .twoSources)
  | _, some ast => (i.fileText (PathName.ofText ast).text (.ofText ast)).bind scriptOfJson
  | some file, none =>
    if file = "-" then scriptOfText i.stdin.unixNewlines
    else (i.fileText file (.ofText file)).bind scriptOfText
  | none, none => scriptOfText i.stdin.unixNewlines

/-- The text on the standard output. -/
def Outcome.print (t : Text) (o : Outcome) : Outcome :=
  match t.chars? with
  | none => { o with ending := .crash .notEncodable }
  | some _ => { o with stdout := printed [t] }

/-- The text in a file, with a newline at its end. The file is opened before the text is looked at,
so one that cannot be encoded leaves it empty. -/
def Outcome.save (path : PathName) (t : Text) (o : Outcome) : Outcome :=
  let content := encodeText (if t.getLast? = some (.char '\n') then t else t ++ "\n")
  let attempt := o.files.write path (content.getD [])
  let o := { o with files := attempt.after }
  match attempt.error, content with
  | some e, _ => { o with ending := .crash (.path e) }
  | none, none => { o with ending := .crash .notEncodable }
  | none, some _ => o

/-- The text on the standard output, which a dash stands for too, or in a file. -/
def Outcome.deliver (output : Option PathName) (t : Text) (o : Outcome) : Outcome :=
  match output.filter fun path : PathName => path.text ≠ "-" with
  | none => o.print t
  | some path => o.save path t

/-- What a check has to say. -/
def CheckResult.lines (r : CheckResult) : List Text :=
  (if r.skipped then [("syntax check skipped: no PowerShell executable found" : Text)] else []) ++
    r.errors.map fun e => Text.concat ["syntax error: ", e]

/-- The function and the settings of a run, before anything is printed. -/
def Invocation.generated (i : Invocation) (p : ParsedArguments) : Except Ending Generated :=
  match i.settings p with
  | .error e => .error e
  | .ok s => match i.script p with
    | .error e => .error e
    | .ok script => match script.generate? s with
      | none => .error (.fatal .missingBlock)
      | some g => .ok g

/-- The `generate` command. -/
def Invocation.generate (i : Invocation) (p : ParsedArguments) : Outcome :=
  match i.generated p with
  | .error e => e.outcome i.files
  | .ok g =>
    let checked := if p.flag "--check" "--no-check" then some (i.check g.source) else none
    let errors := (checked.map (·.errors)).getD []
    let strict := p.flag "--strict" "--no-strict"
    let code := if !errors.isEmpty || (strict && !g.diagnostics.isEmpty) then 1 else 0
    let text := if p.flag "--json" [] then Json.write (g.response errors).toData else g.source
    let remarks := g.diagnostics.map (·.render) ++ ((checked.map (·.lines)).getD [])
    Outcome.deliver ((p.last? "--output").map PathName.ofText) text
      { ending := .exit code, stderr := remarked remarks, files := i.files }

/-- The `classify` command. -/
def Invocation.classify (i : Invocation) (p : ParsedArguments) : Outcome :=
  match i.settings p with
  | .error e => e.outcome i.files
  | .ok s => match i.script p with
    | .error e => e.outcome i.files
    | .ok script => match script.classify? s with
      | none => (Ending.fatal .missingBlock).outcome i.files
      | some k =>
        Outcome.print (Json.write (k.response script).toData)
          { ending := .exit 0, files := i.files }

/-! ## Commands -/

inductive CommandName where
  | generate
  | classify
  deriving DecidableEq, Repr

namespace CommandName

def all : List CommandName := [generate, classify]

def text : CommandName → Text
  | generate => "generate"
  | classify => "classify"

def ofText? (t : Text) : Option CommandName := all.find? (·.text = t)

/-- The options of a command. -/
def specs (c : CommandName) : List OptionSpec :=
  [⟨"--ast", true⟩, ⟨"--config", true⟩, ⟨"--root", true⟩, ⟨"--help", false⟩] ++
  match c with
  | classify => []
  | generate =>
    [⟨"--name", true⟩, ⟨"--output", true⟩, ⟨"--json", false⟩, ⟨"--check", false⟩,
     ⟨"--no-check", false⟩, ⟨"--strict", false⟩, ⟨"--no-strict", false⟩]

end CommandName

/-- The options whose values are paths. -/
def pathOptions : List Text := ["--ast", "--output", "--config", "--root"]

/-- What a command looks at: files, and whether it is the standard input. -/
structure Needs where
  paths : List PathName := []
  stdin : Bool := false
  deriving DecidableEq, Repr

/-- What a command with these arguments looks at. -/
def ParsedArguments.needs (p : ParsedArguments) : Needs where
  paths :=
    configFile p ::
      (p.arguments ++ (["--ast", "--output"] : List Text).filterMap p.last?).map PathName.ofText
  stdin := (p.last? "--ast").isNone && p.arguments.all (· = ("-" : Text))

/-- The options in front of a command. -/
def programSpecs : List OptionSpec := [⟨"--version", false⟩, ⟨"--help", false⟩]

/-- How the program is used. -/
def usage : Text :=
  .join "\n" ["Usage: [--version] COMMAND [SCRIPT]", "",
    "Compile PowerShell param() blocks with conditional parameters into functions that register",
    "them as dynamic parameters.", "",
    "generate  [--ast FILE] [--name NAME] [--output FILE] [--config FILE] [--root FOLDER]",
    "          [--json] [--check] [--strict]",
    "classify  [--ast FILE] [--config FILE] [--root FOLDER]"]

/-- A run that prints a text and ends. -/
def Invocation.say (i : Invocation) (t : Text) : Outcome :=
  { ending := .exit 0, stdout := printed [t], files := i.files }

/-- A run that ends with a usage error. -/
def Invocation.refuse (i : Invocation) (e : UsageError) : Outcome :=
  (Ending.usage e).outcome i.files

/-- Runs a command with its own arguments. -/
def Invocation.runCommand (i : Invocation) (c : CommandName) (arguments : List Text) : Outcome :=
  match parseArguments c.specs true arguments with
  | .error fault => i.refuse (.arguments fault.error [])
  | .ok p =>
    if (p.last? "--help").isSome then i.say usage
    else match p.nulOption? pathOptions, p.arguments.drop 1 with
      | some name, _ => i.refuse (.arguments (.nulInPath name) [])
      | none, extra :: more => i.refuse (.arguments (.extra (extra :: more)) [])
      | none, [] => match c with
        | .generate => i.generate p
        | .classify => i.classify p

/-- What a run with these arguments looks at. -/
def needs (arguments : List Text) : Needs :=
  match parseArguments programSpecs false arguments with
  | .ok ⟨[], name :: rest⟩ => match CommandName.ofText? name with
    | none => {}
    | some c => match parseArguments c.specs true rest with
      | .ok p => p.needs
      | .error _ => {}
  | _ => {}

/-- The commands that the first of some arguments may stand for. -/
def closeCommands : List Text → List Text
  | [] => []
  | t :: _ => t.closeMatches (CommandName.all.map (·.text))

/-- Parses the program's own options and acts on the first of them; without any it goes on with the
arguments. What stands behind a fault may hint at commands. -/
def Invocation.withOptions (i : Invocation) (hints : List Text → List Text)
    (arguments : List Text) (goOn : List Text → Outcome) : Outcome :=
  match parseArguments programSpecs false arguments with
  | .error fault => i.refuse (.arguments fault.error (hints fault.rest))
  | .ok p => match p.options with
    | (name, _) :: _ => i.say (if name = "--version" then version else usage)
    | [] => goOn p.arguments

/-- Runs the program. A name that is no command is taken for an option once more, because it may
stand behind the two dashes that end the options; what is then left over tells which command may
have been meant. -/
def Invocation.run (i : Invocation) : Outcome :=
  i.withOptions (fun _ => []) i.arguments fun
    | [] => i.refuse .missingCommand
    | name :: rest => match CommandName.ofText? name with
      | some c => i.runCommand c rest
      | none => i.withOptions closeCommands (name :: rest) fun left =>
        i.refuse (.noSuchCommand name (closeCommands left))

end CondParam
