/-
# Running the program

A run turns the words of the command line, the input text and a supply of
identifiers into what is printed and how it ends. Log records that pass the
threshold go to the error output, followed by the error, if there is one.

Key definitions: `RunError`, `Run`, `newHost`, `runLayout`, `runAdapter`,
`Plan.read`, `run`.
-/
import OffsetGaps.Cli.Help
import OffsetGaps.Cli.Listing
import OffsetGaps.Cli.Threshold
import OffsetGaps.Host.OffsetMap
import OffsetGaps.Protocol.Server

namespace OffsetGaps

inductive RunError where
  | unknownCommand (word : String)
  /-- The subcommand `adapter` takes no arguments. -/
  | extraArgument (word : String)
  | flag (e : FlagError)
  | threshold (e : ThresholdError)
  | listing (e : ListingError)
  | host (e : HostError)
  | format (e : UnknownFormat)
  | unwritable (e : EncodeError)
  | overlong
  /-- A call was aborted, or gave a result of another kind. -/
  | aborted (text : String)
deriving DecidableEq, Repr

namespace RunError

/-- The subcommands that may have been meant, as they are listed behind an
error. -/
def hint (names : List String) : String :=
  if names.isEmpty then ""
  else "\n\nDid you mean this?\n" ++ String.join (names.map fun name => "\t" ++ name ++ "\n")

def message : RunError → String
  | .unknownCommand word =>
    "unknown command " ++ Quoted.text word ++ " for \"bufmap\"" ++ hint (suggestions word)
  | .extraArgument word => "unknown command " ++ Quoted.text word ++ " for \"bufmap adapter\""
  | .flag e => e.message
  | .threshold e => e.message
  | .listing e => e.message
  | .host e => e.message
  | .format e => e.message
  | .unwritable e => e.message
  | .overlong => ListingError.overlong.message
  | .aborted text => text

/-- What the error output ends with. -/
def report : RunError → String
  | .unknownCommand word =>
    "Error: " ++ (RunError.unknownCommand word).message ++
      "\nRun 'bufmap --help' for usage.\n"
  | e => "Error: " ++ e.message ++ "\n"

end RunError

structure Run where
  stdout : String := ""
  /-- The log, as far as it passes the threshold. -/
  logged : String := ""
  error : Option RunError := none
deriving DecidableEq, Repr

def Run.stderr (r : Run) : String :=
  r.logged ++ match r.error with
    | some e => e.report
    | none => ""

abbrev OffsetHost := Host (Cells Accumulator)

/-- A host that offers the offset map, watched by a log. -/
def newHost (rejectNegative : Bool) (supply : Supply)
    (complaint : List Char → String := fun _ => "") : OffsetHost :=
  let empty : OffsetHost :=
    { catalogue := { observers := [.logging] }, ledger := { env := { memory := #[] } }, supply
      complaint }
  (empty.register OffsetMap.descriptor (some (OffsetMap.constructor rejectNegative))).1

/-- The part of a log that passes a threshold, as text. -/
def logText (threshold : Int64) (log : Array LogRecord) : String :=
  Help.lines ((log.toList.filter (·.passes threshold)).map LogRecord.line)

def offsetValue : Option Int64 → Value
  | some n => .integer (.int64 n)
  | none => .null

/-- The layout of listed offsets, and the host behind it. -/
def aggregateOffsets (h : OffsetHost) (offsets : List (Option Int64)) :
    OffsetHost × Except RunError Layout :=
  match h.aggregateColumn OffsetMap.descriptor.qualifiedName (offsets.map offsetValue) with
  | (h, .value (.layout l)) => (h, .ok l)
  | (h, .value v) => (h, .error (.aborted ("unexpected result of type " ++ v.typeName)))
  | (h, .failure e) => (h, .error (.host e))
  | (h, .abort text) => (h, .error (.aborted text))

def runLayout (s : Settings) (words : List String) (input : List Char) (supply : Supply) : Run :=
  match Threshold.read s.logLevel with
  | .error e => { error := some (.threshold e) }
  | .ok threshold =>
    let h := newHost s.rejectNegative supply
    match Listing.read words input with
    | .error e => { logged := logText threshold h.ledger.log, error := some (.listing e) }
    | .ok offsets =>
      let (h, layout) := aggregateOffsets h offsets
      let logged := logText threshold h.ledger.log
      match layout with
      | .error e => { logged, error := some e }
      | .ok l =>
        match Layout.render s.format (some l) with
        | .error e => { logged, error := some (.format e) }
        | .ok stdout => { stdout, logged }

/-- The error of serving that did not end in order. -/
def endingError : Host.Ending → Option RunError
  | .finished => none
  | .overlong => some .overlong
  | .unwritable e => some (.unwritable e)
  | .aborted text => some (.aborted text)

/-- The threshold of the subcommand `adapter`, which takes no words. -/
def adapterThreshold (s : Settings) (words : List String) : Except RunError Int64 :=
  match words with
  | word :: _ => .error (.extraArgument word)
  | [] => (Threshold.read s.logLevel).mapError .threshold

def runAdapter (s : Settings) (words : List String) (input : List Char) (supply : Supply)
    (complaint : List Char → String := fun _ => "") : Run :=
  match adapterThreshold s words with
  | .error e => { error := some e }
  | .ok threshold =>
    let served := (newHost s.rejectNegative supply complaint).serve input
    { stdout := served.text
      logged := logText threshold served.host.ledger.log
      error := endingError served.ending }

def runHelp (words : List String) : Run :=
  match Topic.find words with
  | .ok (topic, _) => { stdout := topic.helpText }
  | .error _ => { stdout := Help.unknownTopic words }

/-- What the words of a command line ask for. -/
inductive Plan where
  /-- Nothing that needs input. -/
  | finished (r : Run)
  | layout (s : Settings) (words : List String)
  | adapter (s : Settings) (words : List String)
deriving DecidableEq, Repr

def Plan.read (words : List String) : Plan :=
  match Topic.find words with
  | .error word => .finished { error := some (.unknownCommand word) }
  | .ok (topic, words) =>
    match Settings.readWords topic.flags {} [] words with
    | .error e => .finished { error := some (.flag e) }
    | .ok (settings, arguments) =>
      if settings.help then .finished { stdout := topic.helpText }
      else
        match topic with
        | .program => .finished { stdout := topic.helpText }
        | .help => .finished (runHelp arguments)
        | .layout => .layout settings arguments
        | .adapter => .adapter settings arguments

def run (words : List String) (input : List Char) (supply : Supply)
    (complaint : List Char → String := fun _ => "") : Run :=
  match Plan.read words with
  | .finished r => r
  | .layout s words => runLayout s words input supply
  | .adapter s words => runAdapter s words input supply complaint

end OffsetGaps
