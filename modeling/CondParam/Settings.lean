import CondParam.Text.Lower
import CondParam.Text.Name
import CondParam.Text.Quoted

/-!
# Settings

What a run can choose: the name of the generated function, the tag that marks a conditional
parameter, the stream that the generated function reports to, and names that are reserved besides
PowerShell's common parameters. Settings are valid by construction; `SettingsDraft.check` makes them
from values that need not be.
-/

set_option autoImplicit false

namespace CondParam

/-- The stream that the generated function writes its parameters to. -/
inductive Stream where
  | verbose
  | debug
  deriving DecidableEq, Repr

namespace Stream

def name : Stream → Text
  | verbose => "Verbose"
  | debug => "Debug"

/-- The stream with a given name, in any case and with white space around it. -/
def parse? (raw : Text) : Option Stream :=
  [verbose, debug].find? fun s => s.name.lower = raw.strip.lower

end Stream

/-- A value that no setting can have, with the value as it was given; nothing may have been. -/
inductive SettingsError where
  | functionName (given : Option Text)
  | marker (given : Option Text)
  | stream (given : Text)
  deriving DecidableEq, Repr

namespace SettingsError

/-- The setting at fault. -/
def key : SettingsError → Text
  | functionName _ => "function_name"
  | marker _ => "marker"
  | stream _ => "diagnostic_stream"

/-- A given value as it is shown. -/
def shown : Option Text → Text
  | none => "None"
  | some t => t.quoted

def message : SettingsError → Text
  | functionName given => .concat ["Invalid function name: ", shown given]
  | marker given => .concat ["Invalid marker tag: ", shown given]
  | stream given =>
    .concat ["Unsupported diagnostic stream: ", given.quoted, " (expected Verbose or Debug)"]

end SettingsError

/-- Names that the generated function can have. -/
def isFunctionName (t : Text) : Bool := t.upToFinalNewline Text.isDashedName

/-- Tags that can mark a conditional parameter. -/
def isMarker (t : Text) : Bool := t.upToFinalNewline Text.isDottedName

structure Settings where
  functionName : Text := "Invoke-DynamicFunction"
  marker : Text := "Dynamic"
  stream : Stream := .verbose
  extraReserved : List Text := []
  functionName_valid : isFunctionName functionName = true := by decide
  marker_valid : isMarker marker = true := by decide
  deriving DecidableEq, Repr

/-- Parameters that PowerShell adds to every advanced function. -/
def commonParameters : List Text :=
  ["Verbose", "Debug", "ErrorAction", "WarningAction", "InformationAction", "ProgressAction",
   "ErrorVariable", "WarningVariable", "InformationVariable", "OutVariable", "OutBuffer",
   "PipelineVariable", "WhatIf", "Confirm"]

/-- All names that a parameter should not have or abbreviate. -/
def Settings.reserved (s : Settings) : List Text := commonParameters ++ s.extraReserved

/-- Settings before they are checked. -/
structure SettingsDraft where
  functionName : Option Text := some "Invoke-DynamicFunction"
  marker : Option Text := some "Dynamic"
  stream : Option Text := some "Verbose"
  extraReserved : List Text := []
  deriving DecidableEq, Repr

/-- Checks a draft: the name first, then the marker, then the stream. -/
def SettingsDraft.check (d : SettingsDraft) : Except SettingsError Settings :=
  if hn : isFunctionName (d.functionName.getD []) = true then
    if hm : isMarker (d.marker.getD []) = true then
      let stream := d.stream.getD "None"
      match Stream.parse? stream with
      | some s => .ok ⟨d.functionName.getD [], d.marker.getD [], s, d.extraReserved, hn, hm⟩
      | none => .error (.stream stream)
    else .error (.marker d.marker)
  else .error (.functionName d.functionName)

/-- The settings with another function name. -/
def Settings.withFunctionName (s : Settings) (name : Text) : Except SettingsError Settings :=
  if h : isFunctionName name = true then
    .ok { s with functionName := name, functionName_valid := h }
  else .error (.functionName (some name))

end CondParam
