import CondParam.Emission

/-!
# The skeleton of the generated function

The generated function is a fixed skeleton with slots. Each slot stands on a line of its own, which
is left out if it is blank when the slot is filled; what is filled in is not looked at again.
-/

set_option autoImplicit false

namespace CondParam

inductive Slot where
  | name
  | binding
  | region (r : Region)
  deriving DecidableEq, Repr

/-- A line of the skeleton: fixed text, or a slot between two fixed texts. -/
inductive SkeletonLine where
  | fixed (t : Text)
  | slot (before : Text) (s : Slot) (after : Text)
  deriving DecidableEq, Repr

def skeleton : List SkeletonLine :=
  [.slot "function " .name " \x7b",
   .slot [] .binding [],
   .fixed "    param(",
   .slot "        " (.region .static) [],
   .fixed "    )",
   .fixed [],
   .fixed "    DynamicParam \x7b",
   .fixed (.concat ["        $RuntimeParameterDictionary = New-Object -TypeName ",
     "System.Management.Automation.RuntimeDefinedParameterDictionary"]),
   .slot [] (.region .registration) [],
   .fixed "        return $RuntimeParameterDictionary",
   .fixed "    \x7d",
   .fixed [],
   .fixed "    begin \x7b",
   .slot [] (.region .initialization) [],
   .fixed "    \x7d",
   .fixed [],
   .fixed "    process \x7b",
   .slot [] (.region .pipeline) [],
   .slot [] (.region .diagnostics) [],
   .fixed "    \x7d",
   .fixed "\x7d",
   .fixed []]

/-- The line with its slot filled; a blank one is left out. -/
def SkeletonLine.fill (value : Slot → Text) : SkeletonLine → Option Text
  | fixed t => some t
  | slot before s after =>
    let line := before ++ value s ++ after
    if line.isBlank then none else some line

/-- The attributes of the block, or the default one, indented. -/
def bindingText (attributes : List Text) : Text :=
  let bound : List Text := if attributes.isEmpty then ["[CmdletBinding()]"] else attributes
  .join "\n" (bound.map (indentStep ++ ·))

/-- The texts of a partial map of regions; a region that is missing is empty. -/
def regionText (regions : Region → Option Text) (r : Region) : Text := (regions r).getD []

/-- What fills the slots. -/
def slotText (name : Text) (regions : Region → Text) (attributes : List Text) : Slot → Text
  | .name => name
  | .binding => bindingText attributes
  | .region r => regions r

/-- The source of the generated function. -/
def assemble (name : Text) (regions : Region → Text) (attributes : List Text) : Text :=
  .join "\n" (skeleton.filterMap (·.fill (slotText name regions attributes)))

end CondParam
