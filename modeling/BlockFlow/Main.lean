import BlockFlow.Command.Run

/-! # The program

Gathers the environment and what is found at each argument, runs the command, and prints.
-/

open BlockFlow

def findFile (path : String) : IO FileEntry := do
  let real ← try IO.FS.realPath path catch _ => return .missing
  if ← real.isDir then return .directory
  return .file (← IO.FS.readBinFile real)

def main (arguments : List String) : IO UInt32 := do
  let found ← arguments.mapM fun a => do return (a, ← findFile a)
  let names := ["STYLEBOX_VIEWPORT_WIDTH", "STYLEBOX_RECOVER", "STYLEBOX_LOG_LEVEL"]
  let values ← names.mapM fun name => do return (name, ← IO.getEnv name)
  let ctx : Command.Context :=
    { time := toString (← IO.monoMsNow)
      environment := fun name => (values.lookup name).join
      entry := fun path => (found.lookup path).getD .missing }
  match Command.run ctx arguments with
  | .ok result =>
    (← IO.getStderr).putStr result.errors
    (← IO.getStdout).putStr result.output
    return result.exitCode.toUInt32
  | .error e =>
    (← IO.getStderr).putStrLn e.message
    return 1
