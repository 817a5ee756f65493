import Lamplighter.CommandLine.Command

/-! # The program

Reads the files that the command line names, runs the command on them and prints what it comes to.
-/

namespace Lamplighter.CommandLine

/-- What reading a path comes to. A directory can be opened and not read, while a path through a file
cannot be opened; a path that fails for a reason without a name of its own counts as missing. -/
def readFile (path : Path) : IO (Except FileFault (List UInt8)) := do
  if path.text.contains (Char.ofNat 0) then return .error .nulInPath
  try
    let bytes ← IO.FS.readBinFile path.shown
    return .ok bytes.toList
  catch
    | .inappropriateType none .. => return .error .directory
    | .inappropriateType (some _) .. => return .error .notDirectory
    | .invalidArgument .. => return .error .tooLong
    | _ => return .error .missing

end Lamplighter.CommandLine

open Lamplighter Lamplighter.CommandLine in
def main (arguments : List String) : IO UInt32 := do
  let texts := arguments.map String.toList
  let paths := match Request.read texts with
    | .ok request => request.paths
    | .error _ => []
  let contents ← paths.mapM fun path => do return (path, ← readFile path)
  let outcome := run .usual (filesOf contents) texts
  IO.print outcome.output
  if let .refused _ := outcome then IO.eprint usage
  IO.eprint outcome.errors
  match outcome with
  | .aborted abort =>
    IO.eprintln abort.message
    return 1
  | _ => return (outcome.status?.getD 0).toUInt32
