import CondParam.Text

/-!
# Path names

A path is a root, empty for a relative path, and its parts. Empty parts and dots are dropped when it
is read; two dots are kept.
-/

set_option autoImplicit false

namespace CondParam

structure PathName where
  root : Text
  parts : List Text
  deriving DecidableEq, Repr

namespace PathName

/-- The root of a path: exactly two slashes are a root of their own. -/
def rootOf (t : Text) : Text :=
  match (t.takeWhile (· == .char '/')).length with
  | 0 => []
  | 2 => "//"
  | _ => "/"

def ofText (t : Text) : PathName where
  root := rootOf t
  parts := (t.splitOn '/').filter fun part => !part.isEmpty && part ≠ "."

/-- The path as it is shown; the empty relative path is a dot. -/
def text (p : PathName) : Text :=
  if p.root.isEmpty && p.parts.isEmpty then "." else p.root ++ .join "/" p.parts

/-- The path without its last part. -/
def parent (p : PathName) : PathName := { p with parts := p.parts.dropLast }

/-- The paths that lead to this one, from the shortest, and this one itself. -/
def stages (p : PathName) : List PathName :=
  (List.range p.parts.length).map fun n => { p with parts := p.parts.take (n + 1) }

/-- A path inside this one. -/
def child (p : PathName) (name : Text) : PathName := { p with parts := p.parts ++ [name] }

end PathName

end CondParam
