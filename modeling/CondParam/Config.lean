import CondParam.Data.Display
import CondParam.Settings

/-!
# Settings from data

A configuration is a table; its `generate` section gives defaults for the settings. Values are taken
for texts, whatever they are; null counts as not given.
-/

set_option autoImplicit false

namespace CondParam

/-- The name of the configuration file. -/
def configName : Text := "dynparam.toml"

/-- The `generate` section of a configuration; anything but a table is none. -/
def generateSection (config : Data) : List (Text × Data) :=
  ((config.get? "generate").map Data.entries).getD []

/-- The names in a text, separated by commas; blank ones are left out. -/
def namesOfText (t : Text) : List Text :=
  ((t.splitOn ',').map Text.strip).filter fun name => !name.isEmpty

/-- The names in a value: a text or a list, of which only the texts count. -/
def splitNames : Data → List Text
  | .text t => namesOfText t
  | .list items => items.flatMap fun
    | .text t => namesOfText t
    | _ => []
  | _ => []

/-- The defaults with every given value of a payload put over them. -/
def mergePayload (payload defaults : List (Text × Data)) : List (Text × Data) :=
  payload.foldl (fun merged (key, value) =>
    if value.isNull then merged else Data.insertEntry key value merged) defaults

/-- Why a section gives no settings: a value is not allowed, or it is an integer with so many digits
that it cannot be taken for a text. -/
inductive SectionError where
  | settings (e : SettingsError)
  | longNumeral
  deriving DecidableEq, Repr

/-- The given value of a setting, taken for a text, or its default. -/
def givenText (entries : List (Text × Data)) (key default : Text) : Except SectionError Text :=
  match entries.lookup key with
  | none => .ok default
  | some value =>
    if value.isNull then .ok default
    else match value.display? with
      | none => .error .longNumeral
      | some t => .ok t

/-- The given stream, or the default one. -/
def givenStream (entries : List (Text × Data)) : Except SectionError Stream :=
  match givenText entries "diagnostic_stream" Stream.verbose.name with
  | .error e => .error e
  | .ok raw => match Stream.parse? raw with
    | none => .error (.settings (.stream raw))
    | some stream => .ok stream

/-- The settings of a section. Values are taken for texts first, the stream is looked at next, then
the name and the marker. -/
def Settings.ofEntries (entries : List (Text × Data)) : Except SectionError Settings := do
  let functionName ← givenText entries "function_name" "Invoke-DynamicFunction"
  let marker ← givenText entries "marker" "Dynamic"
  let stream ← givenStream entries
  let draft : SettingsDraft := {
    functionName := some functionName
    marker := some marker
    stream := some stream.name
    extraReserved := splitNames ((entries.lookup ("reserved_names" : Text)).getD .null) }
  draft.check.mapError .settings

end CondParam
