import CondParam.Text.Lines

/-!
# The host's syntax check

A generated function can be handed to PowerShell's own parser, if there is one. What the host prints
are the errors; a host that fails without a word is an error of its own.
-/

set_option autoImplicit false

namespace CondParam

/-- The programs that can be the host, by preference. -/
def hostCandidates : List Text := ["pwsh", "powershell"]

/-- What the host is asked to run: it parses its input, prints the errors and exits with their
number. -/
def parseCommand : Text :=
  .concat ["$errors = $null; ",
    "[System.Management.Automation.Language.Parser]::ParseInput(",
    "[Console]::In.ReadToEnd(), [ref]$null, [ref]$errors) | Out-Null; ",
    "$errors | ForEach-Object \x7b $_.Message \x7d; ",
    "exit @($errors).Count"]

/-- What a search for the host comes to. -/
structure HostSearch where
  found : Option Text := none
  /-- The candidates that were asked for, in order. -/
  asked : List Text := []
  deriving DecidableEq, Repr

/-- Asks for the candidates in order until one is found; an empty path is none. -/
def searchHost (which : Text → Option Text) : List Text → HostSearch
  | [] => {}
  | c :: cs =>
    match (which c).filter (!·.isEmpty) with
    | some path => { found := some path, asked := [c] }
    | none =>
      let rest := searchHost which cs
      { rest with asked := c :: rest.asked }

/-- The host of a check: the given program, with nothing asked, or what the search finds. -/
def chooseHost (which : Text → Option Text) (executable : Option Text) : HostSearch :=
  match executable.filter (!·.isEmpty) with
  | some program => { found := some program }
  | none => searchHost which hostCandidates

/-- A call of the host: the source goes to its input. -/
structure HostCall where
  executable : Text
  input : Text
  deriving DecidableEq, Repr

/-- The program and its arguments. -/
def HostCall.arguments (c : HostCall) : List Text :=
  [c.executable, "-NoProfile", "-NonInteractive", "-Command", parseCommand]

/-- How a call ended: with a status and what was printed, or not at all. -/
inductive HostOutcome where
  | completed (status : Int) (stdout stderr : Option Text)
  | failed (message : Text)
  deriving DecidableEq, Repr

structure CheckResult where
  ok : Bool
  skipped : Bool := false
  executable : Option Text := none
  errors : List Text := []
  deriving DecidableEq, Repr

/-- The result without a host. -/
def CheckResult.skip : CheckResult := { ok := true, skipped := true }

/-- What an outcome says about the source. -/
def HostOutcome.result (executable : Text) : HostOutcome → CheckResult
  | failed message =>
    { ok := false, executable := some executable,
      errors := [.concat ["failed to run ", executable, ": ", message]] }
  | completed status stdout stderr =>
    let printed := ((stdout.getD []).lines.map Text.strip).filter fun line => !line.isEmpty
    let complaint := (stderr.getD []).strip
    let errors :=
      if status ≠ 0 ∧ printed = [] then
        if complaint.isEmpty then
          [.concat [executable, " exited with status ", .ofInt status]]
        else [complaint]
      else printed
    { ok := status = 0, executable := some executable, errors }

/-- The call that a check makes, if there is a host. -/
def hostCall? (which : Text → Option Text) (executable : Option Text) (source : Text) :
    Option HostCall :=
  (chooseHost which executable).found.map (⟨·, source⟩)

/-- Checks a source with the host; without a host the check is skipped. -/
def checkSource (which : Text → Option Text) (run : HostCall → HostOutcome)
    (executable : Option Text) (source : Text) : CheckResult :=
  match hostCall? which executable source with
  | none => .skip
  | some call => (run call).result call.executable

end CondParam
