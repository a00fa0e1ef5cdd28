import HubCard.CommandLine

/-!
The command line: replays a script against a card, with views on standard output and the log on
standard error.
-/

namespace HubCard

open CommandLine

/-- The reason of a fault of the system, with its number. -/
def reasonOf : IO.Error → String
  | .noFileOrDirectory _ number reason | .permissionDenied _ number reason
  | .inappropriateType _ number reason => reason ++ " (os error " ++ toString number ++ ")"
  | e => toString e

/-- What comes of reading the file at a path. -/
def readContent (path : String) : IO Content := do
  match ← (IO.FS.Handle.mk path .read).toBaseIO with
  | .error e => return .unopened (reasonOf e)
  | .ok file =>
    match ← file.readToEnd.toBaseIO with
    | .error e => return .unreadable (reasonOf e)
    | .ok text => return .text text

def printOutput : Script.Output → IO Unit
  | .line text => IO.println text
  | .log line => IO.eprintln (logText line)

def printFault (fault : CommandLine.Fault) : IO UInt32 := do
  IO.eprintln fault.report
  return 1

/-- Plays standard input line by line, from the line with a number on. -/
partial def playInput (input : IO.FS.Stream) (r : Script.Replay) (number : Nat) : IO UInt32 := do
  match ← input.getLine.toBaseIO with
  | .error e => printFault (.unreadableLine number (reasonOf e))
  | .ok line =>
    if line.isEmpty then
      r.finish.forM printOutput
      return 0
    else
      match r.feed number (Text.chomp line) with
      | .error fault => printFault (.script fault)
      | .ok (r, outputs) =>
        outputs.forM printOutput
        playInput input r (number + 1)

def playPrepared (p : Prepared) : IO UInt32 := do
  match p.script with
  | some script =>
    let (outputs, fault) := replay p script
    outputs.forM printOutput
    match fault with
    | some fault => printFault fault
    | none => return 0
  | none =>
    let (r, first) := Script.Replay.begin p.card p.themes p.dark
    first.forM printOutput
    playInput (← IO.getStdin) r 1

def runCommand (arguments : List String) : IO UInt32 := do
  match parse arguments with
  | .error fault =>
    IO.eprintln ("error: " ++ fault.message)
    return 2
  | .ok .showVersion =>
    IO.println versionText
    return 0
  | .ok .showHelp =>
    IO.println helpText
    return 0
  | .ok (.run options) =>
    match ← (prepare readContent options).run with
    | .error fault => printFault fault
    | .ok p => playPrepared p

end HubCard

def main (arguments : List String) : IO UInt32 :=
  HubCard.runCommand arguments
