import TensorGraph.CommandLine.Run

/-!
The program: it reads the file that the arguments name and prints what a run writes.
-/

namespace TensorGraph.CommandLine

def readFile (path : Path) : IO (Except Error String) := do
  let name := path.text
  try
    return .ok (← IO.FS.readFile name)
  catch
    | .inappropriateType .. => return .error (.fault .isDirectory)
    | _ => return .error (.fault .fileNotFound)

/-- Prints what a run has written and yields its exit code. -/
def Outcome.print (o : Outcome) : IO UInt32 := do
  (← IO.getStdout).putStr o.output
  (← IO.getStderr).putStr o.messages
  match o.result with
  | .ok code => return UInt32.ofNat code
  | .error e =>
    (← IO.getStderr).putStrLn (programName ++ ": " ++ (e.message?.getD "the run has failed"))
    return 1

def start (arguments : List String) : IO UInt32 := do
  match Options.parse arguments with
  | .error stop => stop.outcome.print
  | .ok options => (options.run (← readFile (.parse options.file))).print

end TensorGraph.CommandLine

def main (arguments : List String) : IO UInt32 := TensorGraph.CommandLine.start arguments
