import ThreeAddress.Command.Run

/-!
# The command

Carries out the file operations that a run asks for and prints what it gives.
-/

namespace ThreeAddress.Command

set_option autoImplicit false

/-- What a failed file operation is told as; a path through a file has the code 20. -/
def faultOf : IO.Error → FileFault
  | .noFileOrDirectory .. => .notFound
  | .inappropriateType _ code _ => if code = 20 then .notDirectory else .isDirectory
  | .permissionDenied _ code details => .other s!"{details} (os error {code})"
  | error => .other (toString error)

def readPath (path : String) : IO (Except FileFault ByteArray) := do
  try
    return .ok (← IO.FS.readBinFile path)
  catch error =>
    return .error (faultOf error)

def writePath (path content : String) : IO (Except FileFault Unit) := do
  try
    IO.FS.writeFile path content
    return .ok ()
  catch error =>
    return .error (faultOf error)

end ThreeAddress.Command

open ThreeAddress Command in
def main (arguments : List String) : IO UInt32 := do
  let read ←
    match Request.ofArguments arguments with
    | .ok (.compile options) => readPath options.input
    | _ => pure (.error .notFound)
  let planned := run arguments (fun _ => read) (fun _ => .ok ())
  let result ←
    match planned.written with
    | none => pure planned
    | some (path, content) =>
        let write ← writePath path content
        pure (run arguments (fun _ => read) (fun _ => write))
  IO.print result.stdout
  IO.eprint result.stderr
  return result.exitCode.toUInt32
