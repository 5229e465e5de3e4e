import ThreeAddress.Command.Run

/-!
# Runs in a directory

A directory that holds files and no directories, as the place in which a run reads and writes. A
path is walked part by part, and every part but the last has to lead to a directory. A slash at the
end of a path asks for a directory too: no file is read through it and none is made.
-/

namespace ThreeAddress.Command

set_option autoImplicit false

structure Directory where
  /-- The files with their contents. -/
  files : List (String × ByteArray)

/-- The directories that a walk passes: the one of the run, and those above it, of whose entries
none is known. -/
inductive Station where
  | here
  | above
deriving DecidableEq

inductive Target where
  | directory
  /-- A name in the directory of the run, with a slash behind it or without one. -/
  | entry (name : String) (slashed : Bool)
deriving DecidableEq

def pathParts (path : String) : List String :=
  (path.splitOn "/").filter (· ≠ "")

def Station.ofPath (path : String) : Station :=
  if path.startsWith "/" then .above else .here

namespace Directory

def find? (directory : Directory) (name : String) : Option ByteArray :=
  (directory.files.find? (·.1 == name)).map (·.2)

def enter (directory : Directory) (station : Station) (part : String) :
    Except FileFault Station :=
  if part = "." then .ok station
  else if part = ".." then .ok .above
  else
    match station with
    | .above => .error .notFound
    | .here => .error (if (directory.find? part).isSome then .notDirectory else .notFound)

/-- What a path leads to, unless the walk fails before its last part. -/
def target (directory : Directory) (path : String) : Except FileFault Target :=
  let parts := pathParts path
  match parts.getLast? with
  | none => if path = "" then .error .notFound else .ok .directory
  | some name =>
      (parts.dropLast.foldlM directory.enter (Station.ofPath path)).bind fun station =>
        if name = "." || name = ".." then .ok .directory
        else
          match station with
          | .above => .error .notFound
          | .here => .ok (.entry name (path.endsWith "/"))

def read (directory : Directory) (path : String) : Except FileFault ByteArray :=
  (directory.target path).bind fun
    | .directory => .error .isDirectory
    | .entry name slashed =>
        match directory.find? name with
        | none => .error .notFound
        | some content => if slashed then .error .notDirectory else .ok content

def write (directory : Directory) (path : String) : Except FileFault Unit :=
  (directory.target path).bind fun
    | .directory => .error .isDirectory
    | .entry _ slashed => if slashed then .error .isDirectory else .ok ()

/-- The file that a result wrote, if it is new or no longer what it was. -/
def change? (directory : Directory) (result : Result) : Option (String × String) :=
  match result.written with
  | none => none
  | some (path, content) =>
      match directory.target path with
      | .ok (.entry name _) =>
          if (directory.find? name).map ByteArray.data = some content.toUTF8.data then none
          else some (name, content)
      | _ => none

def run (directory : Directory) (arguments : List String) : Result :=
  Command.run arguments directory.read directory.write

end Directory

end ThreeAddress.Command
