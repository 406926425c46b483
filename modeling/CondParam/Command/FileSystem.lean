import CondParam.Command.PathName
import CondParam.Text.Quoted

/-!
# The file system

Files and folders by their place, the parts of the path that leads to them from the root. A folder
is there if it was made, if a file is in it, or if the working directory is. A path is followed part
by part, and the first part that leads nowhere decides what is said of it. Folders that were made on
the way to a failure stay.
-/

set_option autoImplicit false

namespace CondParam

/-- What the system says when a path cannot be used. -/
inductive PathError where
  | notFound
  | notDirectory
  | isDirectory
  | alreadyExists
  | nameTooLong
  deriving DecidableEq, Repr

namespace PathError

def code : PathError → Nat
  | notFound => 2
  | notDirectory => 20
  | isDirectory => 21
  | alreadyExists => 17
  | nameTooLong => 36

def description : PathError → Text
  | notFound => "No such file or directory"
  | notDirectory => "Not a directory"
  | isDirectory => "Is a directory"
  | alreadyExists => "File exists"
  | nameTooLong => "File name too long"

/-- The message for a path. -/
def message (e : PathError) (p : PathName) : Text :=
  .concat ["[Errno ", .ofNat e.code, "] ", e.description, ": ", p.text.quoted]

end PathError

/-- The content of a file. -/
abbrev Bytes := List UInt8

/-- The parts of the path from the root. -/
abbrev Place := List Text

inductive Entry where
  | file (content : Bytes)
  | folder
  deriving DecidableEq

structure FileSystem where
  files : List (Place × Bytes) := []
  folders : List Place := []
  /-- The working directory. -/
  here : Place := []
  deriving DecidableEq

/-- The most bytes that a part of a path can have. -/
def partLimit : Nat := 255

/-- The most bytes that a path can have. -/
def pathLimit : Nat := 4095

/-- What an operation leaves behind, and what went wrong with it. -/
structure Attempt where
  after : FileSystem
  error : Option PathError := none
  deriving DecidableEq

namespace FileSystem

/-- What stands at a place. -/
def entry? (fs : FileSystem) (place : Place) : Option Entry :=
  match fs.files.lookup place with
  | some content => some (.file content)
  | none =>
    if place.isPrefixOf fs.here || fs.folders.contains place ||
        fs.files.any fun f => place.isPrefixOf f.1 then
      some .folder
    else none

/-- Follows parts from a place; each has to start from a folder. -/
def follow (fs : FileSystem) (current : Place) : List Text → Except PathError Place
  | [] => .ok current
  | part :: parts =>
    match fs.entry? current with
    | none => .error .notFound
    | some (.file _) => .error .notDirectory
    | some .folder =>
      if part = ".." then fs.follow current.dropLast parts
      else if partLimit < part.utf8Size then .error .nameTooLong
      else fs.follow (current ++ [part]) parts

/-- The place that a path leads to, whether anything stands there or not. -/
def place (fs : FileSystem) (p : PathName) : Except PathError Place :=
  if pathLimit < p.text.utf8Size then .error .nameTooLong
  else fs.follow (if p.root.isEmpty then fs.here else []) p.parts

/-- The content of a file. -/
def read (fs : FileSystem) (p : PathName) : Except PathError Bytes :=
  match fs.place p with
  | .error e => .error e
  | .ok place => match fs.entry? place with
    | some (.file content) => .ok content
    | some .folder => .error .isDirectory
    | none => .error .notFound

def isFolder (fs : FileSystem) (p : PathName) : Bool :=
  match fs.place p with
  | .error _ => false
  | .ok place => fs.entry? place = some .folder

/-- Makes a folder in a folder that is there. -/
def makeFolder (fs : FileSystem) (p : PathName) : Except PathError FileSystem :=
  match fs.place p with
  | .error e => .error e
  | .ok place => match fs.entry? place with
    | some _ => .error .alreadyExists
    | none => .ok { fs with folders := fs.folders ++ [place] }

/-- Makes a folder and, where it is not found, those on the way to it; one that is there will do. -/
def ensureFolder (fs : FileSystem) (p : PathName) : Attempt :=
  match fs.makeFolder p with
  | .ok fs => { after := fs }
  | .error .notFound =>
    if p.parts.isEmpty then { after := fs, error := some .notFound }
    else
      let above := fs.ensureFolder p.parent
      match above.error with
      | some _ => above
      | none => match above.after.makeFolder p with
        | .ok fs => { after := fs }
        | .error e =>
          if above.after.isFolder p then above else { above with error := some e }
  | .error e => if fs.isFolder p then { after := fs } else { after := fs, error := some e }
termination_by p.parts.length
decreasing_by
  have : p.parts ≠ [] := by simp_all
  have := List.length_pos_iff.2 this
  simp only [PathName.parent, List.length_dropLast]
  omega

/-- The file system with the content of a file set. -/
def setFile (fs : FileSystem) (place : Place) (content : Bytes) : FileSystem :=
  { fs with files := fs.files.filter (·.1 ≠ place) ++ [(place, content)] }

/-- Writes a file, and makes the folders on the way to it. -/
def write (fs : FileSystem) (p : PathName) (content : Bytes) : Attempt :=
  let made := fs.ensureFolder p.parent
  match made.error with
  | some _ => made
  | none => match made.after.place p with
    | .error e => { made with error := some e }
    | .ok place => match made.after.entry? place with
      | some .folder => { made with error := some .isDirectory }
      | _ => { after := made.after.setFile place content }

/-- The file system with what somebody found at a path. -/
def note (fs : FileSystem) (p : PathName) (found : Entry) : FileSystem :=
  match fs.place p, found with
  | .error _, _ => fs
  | .ok place, .file content => fs.setFile place content
  | .ok place, .folder => { fs with folders := fs.folders ++ [place] }

/-- The files that are new or changed since `before`. -/
def changesSince (fs before : FileSystem) : List (Place × Bytes) :=
  fs.files.filter fun f => before.files.lookup f.1 ≠ some f.2

/-- The same for the files below the working directory, by their place in it. -/
def changesHereSince (fs before : FileSystem) : List (Place × Bytes) :=
  (fs.changesSince before).filterMap fun f =>
    if fs.here.isPrefixOf f.1 then some (f.1.drop fs.here.length, f.2) else none

/-- The folders that were made since `before`, from the outermost. -/
def foldersSince (fs before : FileSystem) : List Place :=
  fs.folders.filter fun place => !before.folders.contains place

end FileSystem

end CondParam
