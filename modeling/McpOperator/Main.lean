import McpOperator.Program.Run

open McpOperator

def readText? (path : String) : IO (Option String) := do
  try
    let text ← IO.FS.readFile path
    return some text
  catch _ => return none

def gather (arguments : List String) : IO Surroundings := do
  let values ← Run.variableNames.mapM fun name => do return (name, ← IO.getEnv name)
  let env? := fun name => (values.lookup name).join
  let texts ← (Run.paths ⟨fun _ => none, env?⟩ arguments).mapM fun path => do
    return (path, ← readText? path)
  return ⟨fun path => (texts.lookup path).join, env?⟩

def display (s : Surroundings) (r : Run) : IO UInt32 := do
  if r.log.isSome then
    IO.FS.writeFile Run.logFileName (String.join ((r.lines (Run.fileFilter s)).map (· ++ "\n")))
    (r.lines (Run.consoleFilter s)).forM IO.println
  match r.ending with
  | .printed text => IO.print text
  | .failed error => IO.eprintln ("Error: " ++ error.detail)
  | .badArguments => IO.eprintln "For more information, try '--help'."
  | .stopped => pure ()
  return r.ending.exitCode.toUInt32

def main (arguments : List String) : IO UInt32 := do
  let s ← gather arguments
  display s (Run.ofArguments s arguments)
