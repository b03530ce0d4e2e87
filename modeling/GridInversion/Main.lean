import GridInversion.Cli.Report

namespace GridInversion.Cli

def Unreadable.ofError : IO.Error → Unreadable
  | .noFileOrDirectory _ _ _ => .missing
  | .inappropriateType _ 21 _ => .directory
  | e => .other (toString e)

def readFileContent (path : String) : IO Content := do
  try
    return .ok (← IO.FS.readBinFile path)
  catch e =>
    return .error (.ofError e)

def readStdin : IO Content := do
  try
    return .ok (← (← IO.getStdin).readBinToEnd)
  catch e =>
    return .error (.ofError e)

def readContent : Source → IO Content
  | .stdin => readStdin
  | .file path => readFileContent path
  | .example => return .ok .empty
  | .random _ => return .ok .empty

def perform (args : List String) : IO Exit :=
  match standard.read args with
  | .error exit => return exit
  | .ok o => return .ofRun (o.run standard.generator (← readContent o.source))

end GridInversion.Cli

def main (args : List String) : IO UInt32 := do
  let exit ← GridInversion.Cli.perform args
  (← IO.getStderr).putStr exit.stderr
  (← IO.getStdout).putStr exit.stdout
  return UInt32.ofNat exit.status
