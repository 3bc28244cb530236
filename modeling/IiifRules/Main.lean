import IiifRules.Command.Run

/-! # The command line

Reads what a command needs, runs it and prints its outcome. -/

namespace IiifRules.Main

/-- The path that a command reads. -/
def pathOf : Command → Option String
  | .validateUri _ info? _ => info?
  | .checkInfo path _ _ => some path
  | _ => none

/-- The content of a file. -/
def readFile (path : String) : IO (Except Failure String) := do
  try
    return .ok (← IO.FS.readFile path)
  catch e =>
    match e with
    | .noFileOrDirectory .. => return .error .missingFile
    | _ => return .error .directoryRead

/-- What the command of some arguments can read. -/
def sources (args : List String) : IO Command.Sources := do
  match Command.parse args with
  | .ok c =>
    match pathOf c with
    | some "-" => return ⟨fun _ => .error .missingFile, ← (← IO.getStdin).readToEnd⟩
    | some path =>
      let content ← readFile path
      return ⟨fun _ => content, ""⟩
    | none => return ⟨fun _ => .error .missingFile, ""⟩
  | .error _ => return ⟨fun _ => .error .missingFile, ""⟩

/-- A record as one line. -/
def recordLine (r : Log.Record) : String :=
  match r.members with
  | .ok ms => Json.spaced false (.object ms)
  | .error f => f.message?.getD ""

end IiifRules.Main

def main (args : List String) : IO UInt32 := do
  let o := IiifRules.Command.runArguments (← IiifRules.Main.sources args) args
  for r in o.logs do
    IO.eprintln (IiifRules.Main.recordLine r)
  IO.print o.output
  for line in o.diagnostics do
    IO.eprintln line
  match o.failure? with
  | some f => IO.eprintln (f.message?.getD "")
  | none => pure ()
  return o.exitCode.toUInt32
