import InfoFlow.Replay

/-! # The replay program

Reads the files that the arguments name, runs the command and puts out what it reports. -/

namespace InfoFlow

def readFile (file : IO.FS.Handle) : IO Contents := do
  try
    match String.fromUTF8? (← file.readBinToEnd) with
    | some text => return .text text
    | none => return .unreadable
  catch _ => return .unreadable

/-- What is found under the name of a file. Where nothing can be opened there is nothing, unless only a
permission is wanting. -/
def readContents (path : String) : IO Contents := do
  try
    readFile (← IO.FS.Handle.mk path .read)
  catch
    | .permissionDenied .. => return .unreadable
    | _ => return .missing

end InfoFlow

open InfoFlow

def main (arguments : List String) : IO UInt32 := do
  let contents ← arguments.mapM fun path => do return (path, ← readContents path)
  let run := Replay.command (fun path => (contents.lookup path).getD .missing) arguments
  let output ← IO.getStdout
  output.putStr run.text
  match run.failure with
  | none => return 0
  | some failure =>
    let errors ← IO.getStderr
    errors.putStrLn failure.message
    return 1
