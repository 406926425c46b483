import CondParam.Payload
import CondParam.Script.Fault
import CondParam.Settings

/-!
# Errors

Everything that can be wrong with what a user hands in: the settings, the script, or its payload.
-/

set_option autoImplicit false

namespace CondParam

inductive Error where
  | settings (e : SettingsError)
  | script (reason : Reason) (place : Position)
  | payload (problems : List Problem)
  | missingBlock
  deriving DecidableEq, Repr

/-- A path as it is shown: keys and indexes between dots. -/
def PathStep.text : PathStep → Text
  | key k => k
  | index n => .ofNat n

/-- A problem on one line. -/
def Problem.line (p : Problem) : Text :=
  .concat [.join "." (p.path.map (·.text)), ": ", p.kind.message]

/-- A reason with its place. -/
def Reason.messageAt (r : Reason) (p : Position) : Text :=
  .concat [r.message, " (line ", .ofNat p.line, ", column ", .ofNat p.column, ")"]

def Error.message : Error → Text
  | settings e => e.message
  | script reason p => reason.messageAt p
  | payload problems => .join "\n" (problems.map (·.line))
  | missingBlock => "input specification has no param() block"

end CondParam
