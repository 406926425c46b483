import CondParam.Script.Declaration
import CondParam.Script.Locate

/-!
# Reading a script

`Script.read` finds the parameter block of a text and reads its declarations. What follows the block
is not looked at.
-/

set_option autoImplicit false

namespace CondParam

/-- Reads the first parameter block of a text; a text without one is a script without a block. -/
def Script.read (t : Text) : Except ReadError Script :=
  match locateBlock t with
  | .error f => .error (.fault f)
  | .ok none => .ok {}
  | .ok (some located) =>
    (readBlock located.rest).map fun parameters =>
      { block := some { parameters, attributes := located.attributes } }

end CondParam
