import CondParam.Command

/-!
# The program

Looks at what the command line asks for, runs the command, prints and writes what came out of it. No
host is started from here, so a check of the source is skipped.
-/

set_option autoImplicit false

namespace CondParam

/-- The string of a text that is printed or names a file; halves of surrogate pairs are escaped. -/
def Text.string (t : Text) : String := String.ofList (t.halvesEscaped.filterMap CodePoint.char?)

/-- What the system has at a path. -/
def inspect (p : PathName) : IO (Option Entry) := do
  try
    return some (.file (← IO.FS.readBinFile p.text.string).data.toList)
  catch
    | .inappropriateType _ 21 _ => return some .folder
    | _ => return none

/-- The file system as far as some paths lead from the working directory. -/
def look (here : Place) (paths : List PathName) : IO FileSystem := do
  let mut fs : FileSystem := { here := here }
  for p in paths.flatMap PathName.stages do
    if let some found ← inspect p then fs := fs.note p found
  return fs

/-- The path of a place. -/
def Place.path (place : Place) : PathName := ⟨"/", place⟩

end CondParam

open CondParam in
def main (args : List String) : IO UInt32 := do
  let arguments := args.map fun s : String => (s : Text)
  let asked := needs arguments
  let here := (PathName.ofText (← IO.currentDir).toString).parts
  let files ← look here asked.paths
  let stdin ← if asked.stdin then (← IO.getStdin).readToEnd else pure ""
  let invocation : Invocation := { files := files, arguments := arguments, stdin := stdin }
  let outcome := invocation.run
  for place in outcome.files.foldersSince files do
    IO.FS.createDirAll place.path.text.string
  for (place, content) in outcome.files.changesSince files do
    IO.FS.writeBinFile place.path.text.string ⟨content.toArray⟩
  IO.print outcome.stdout.string
  IO.eprint (outcome.stderr ++ remarked outcome.ending.remark).string
  return outcome.ending.code.toUInt32
