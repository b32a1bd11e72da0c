/-
# The command line

Reads words and input, and prints. The subcommand `adapter` answers each
line as it comes; everything else is one run.
-/
import OffsetGaps.Cli.Run

namespace OffsetGaps

/-- The rest of a stream. -/
partial def readAll (input : IO.FS.Stream) (done : Array String) : IO String := do
  let line ← input.getLine
  if line.isEmpty then return String.join done.toList
  readAll input (done.push line)

/-- A block of random bits. -/
def randomBlock : IO Block := do
  let bytes ← IO.getRandomBytes 16
  return BitVec.ofNat 128 (bytes.toList.foldl (fun n b => n * 256 + b.toNat) 0)

/-- Prints what a run has to say, and gives its exit code. -/
def finish (r : Run) : IO UInt32 := do
  (← IO.getStdout).putStr r.stdout
  (← IO.getStderr).putStr r.stderr
  return if r.error.isSome then 1 else 0

/-- Prints the log of a host as far as it passes the threshold, and clears
it. -/
def flushLog (threshold : Int64) (h : OffsetHost) : IO OffsetHost := do
  (← IO.getStderr).putStr (logText threshold h.ledger.log)
  return h.clearRecords

def close (threshold : Int64) (h : OffsetHost) (ending : Host.Ending) : IO UInt32 := do
  discard (flushLog threshold h)
  finish { error := endingError ending }

/-- Answers lines as they come. -/
partial def serveStream (threshold : Int64) (h : OffsetHost) : IO UInt32 := do
  let h ← flushLog threshold h
  let text ← (← IO.getStdin).getLine
  if text.isEmpty then close threshold h.reportOpen .finished
  else
    let lines := Lines.split Host.lineLimit text.toList
    match lines.accepted with
    | [] => close threshold h .overlong
    | line :: _ =>
      let h := { h with supply := { h.supply with queue := [← randomBlock] } }
      match h.serveLine line with
      | .skipped => serveStream threshold h
      | .broken h ending => close threshold h ending
      | .answered h answer last =>
        let output ← IO.getStdout
        output.putStrLn (String.ofList answer)
        output.flush
        if last then close threshold h.reportOpen .finished else serveStream threshold h

def runWords (words : List String) : IO UInt32 := do
  match Plan.read words with
  | .finished r => finish r
  | .layout s words =>
    let input ← if words.isEmpty then readAll (← IO.getStdin) #[] else pure ""
    finish (runLayout s words input.toList {})
  | .adapter s words =>
    match adapterThreshold s words with
    | .error e => finish { error := some e }
    | .ok threshold =>
      let complaint (line : List Char) := "no command: " ++ Quoted.text (String.ofList line)
      serveStream threshold (newHost s.rejectNegative {} complaint)

end OffsetGaps

def main (words : List String) : IO UInt32 := OffsetGaps.runWords words
