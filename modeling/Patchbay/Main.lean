import Patchbay.Demo.Run

/-! The command line: reads the files that a request names, runs it and prints the report. -/

open Patchbay CommandLine

def content? (path : String) : IO (Option ByteArray) := do
  try return some (← IO.FS.readBinFile path) catch _ => return none

def main (args : List String) : IO UInt32 := do
  match Request.ofWords args with
  | .error .help =>
    IO.println usage
    return 0
  | .error .refused =>
    IO.eprintln usage
    return 2
  | .ok request =>
    let contents ← request.paths.mapM fun path => return (path, ← content? path)
    match request.run fun path => (contents.lookup path).join with
    | .error failure =>
      IO.eprintln failure.message
      return failure.exitCode
    | .ok report =>
      if request.json then IO.println report.toJson.pretty
      else IO.println ("\n".intercalate report.toLines)
      return 0
