/-
# Serving commands

Commands come one a line and are answered one a line; blank lines are passed
over. A line that is no command is answered with a refusal, in the words of
the decoder, and changes nothing. Serving ends with the command `shutdown`,
with the end of the input, at a line that is too long, at an answer that
cannot be written, or when a call is aborted. When it ends in order,
instances that are still open are reported in the log.

The input is a list of characters. Bytes that are no UTF-8, which a decoder
would replace inside strings and refuse elsewhere, are not modelled. Which
words the decoder chooses is left open: they are a function of the line.

Key definitions: `Verb`, `Host.execute`, `Host.decode`, `Host.answerLine`,
`Host.serveLine`, `Host.serve`.
-/
import OffsetGaps.Host.Handle
import OffsetGaps.Protocol.Answer
import OffsetGaps.Protocol.Command
import OffsetGaps.Text.Lines

namespace OffsetGaps

/-- What a command may ask for. -/
inductive Verb where
  | init
  | functions
  | openInstance
  | update
  | finalize
  | discard
  | aggregate
  | shutdown
deriving DecidableEq, Repr

namespace Verb

def all : List Verb :=
  [.init, .functions, .openInstance, .update, .finalize, .discard, .aggregate, .shutdown]

/-- The type of the commands with a verb. -/
def name : Verb → String
  | .init => "init"
  | .functions => "functions"
  | .openInstance => "open"
  | .update => "update"
  | .finalize => "finalize"
  | .discard => "discard"
  | .aggregate => "aggregate"
  | .shutdown => "shutdown"

/-- The verb of a command type; case counts. -/
def ofName? (name : String) : Option Verb := all.find? fun v => v.name == name

end Verb

/-- What comes of a command: an answer, unless a call was aborted. -/
inductive Reply where
  | answer (a : Answer)
  | abort (text : String)
deriving Repr

namespace Reply

def refusal (verb : Verb) (e : HostError) : Reply :=
  .answer (.refused verb.name (.ofError e) e.message)

/-- The reply for an outcome, with an answer made from its value. -/
def ofOutcome {α : Type} (verb : Verb) (answer : α → Answer) : Outcome α → Reply
  | .value a => .answer (answer a)
  | .failure e => refusal verb e
  | .abort text => .abort text

end Reply

namespace Host

variable {σ : Type}

def functionInfos (h : Host σ) : List FunctionInfo :=
  h.catalogue.functions.map fun f =>
    ⟨f.descriptor.qualifiedName, f.descriptor.signature, f.descriptor.description⟩

def carryOut (h : Host σ) (verb : Verb) (c : Command) : Host σ × Reply :=
  match verb with
  | .init => (h, .answer .init)
  | .functions => (h, .answer (.functions h.functionInfos))
  | .openInstance =>
    let (h, outcome) := h.openInstance c.function
    (h, .ofOutcome verb .opened outcome)
  | .update =>
    let (h, outcome) := h.update c.id [c.value]
    (h, .ofOutcome verb (fun _ => .updated c.id) outcome)
  | .finalize =>
    let (h, outcome) := h.finalize c.id
    (h, .ofOutcome verb (.finalized c.id) outcome)
  | .discard =>
    let (h, found) := h.discard c.id
    (h, if found then .answer (.discarded c.id) else .refusal verb (.unknownInstance c.id))
  | .aggregate =>
    let (h, outcome) := h.aggregateColumn c.function (c.values.getD [])
    (h, .ofOutcome verb .aggregated outcome)
  | .shutdown => (h, .answer .shutdown)

def execute (h : Host σ) (c : Command) : Host σ × Reply :=
  match Verb.ofName? c.type with
  | some verb => h.carryOut verb c
  | none =>
    (h, .answer (.refused c.type .notSupported ("unknown command type: " ++ c.type)))

structure LineResult (σ : Type) where
  host : Host σ
  reply : Reply
  /-- Whether the line was the command to stop. -/
  last : Bool

/-- The command on a line, or why there is none. -/
def decode (h : Host σ) (line : List Char) : Except String Command :=
  match Command.read line with
  | none => .error (h.complaint line)
  | some c => .ok c

def answerLine (h : Host σ) (line : List Char) : LineResult σ :=
  match h.decode line with
  | .error text => { host := h, reply := .answer (.refused "parse" .parseError text), last := false }
  | .ok c =>
    let (h, reply) := h.execute c
    { host := h, reply, last := c.type == Verb.shutdown.name }

def openRecord (count : Nat) : LogRecord :=
  { level := .warn
    message := "adapter exiting with open aggregations"
    attributes := [("open", .count count)] }

def reportOpen (h : Host σ) : Host σ :=
  if h.openCount = 0 then h
  else { h with ledger := { h.ledger with log := h.ledger.log.push (openRecord h.openCount) } }

inductive Ending where
  /-- A shutdown or the end of the input. -/
  | finished
  | overlong
  | unwritable (e : EncodeError)
  | aborted (text : String)
deriving DecidableEq, Repr

/-- What serving a line leads to. -/
inductive LineStep (σ : Type) where
  | skipped
  /-- The line is answered; `last` says whether serving ends with it. -/
  | answered (host : Host σ) (text : List Char) (last : Bool)
  /-- Serving ends without an answer. -/
  | broken (host : Host σ) (ending : Ending)

def serveLine (h : Host σ) (line : List Char) : LineStep σ :=
  if line.all isBlank then .skipped
  else
    let r := h.answerLine line
    match r.reply with
    | .abort text => .broken r.host (.aborted text)
    | .answer a =>
      match a.text with
      | .error e => .broken r.host (.unwritable e)
      | .ok text => .answered r.host text r.last

structure Served (σ : Type) where
  host : Host σ
  /-- The answers, each without its line feed. -/
  answers : Array (List Char)
  ending : Ending

/-- Serves lines after the answers `out`; `overlong` says how the input
ends. -/
def serveLines (overlong : Bool) :
    List (List Char) → Host σ → Array (List Char) → Served σ
  | [], h, out =>
    if overlong then { host := h, answers := out, ending := .overlong }
    else { host := h.reportOpen, answers := out, ending := .finished }
  | line :: rest, h, out =>
    match h.serveLine line with
    | .skipped => serveLines overlong rest h out
    | .broken h ending => { host := h, answers := out, ending }
    | .answered h text last =>
      if last then { host := h.reportOpen, answers := out.push text, ending := .finished }
      else serveLines overlong rest h (out.push text)

/-- The length in bytes at which a line is too long. -/
def lineLimit : Nat := 10 * 1024 * 1024

def serve (h : Host σ) (text : List Char) : Served σ :=
  let lines := Lines.split lineLimit text
  serveLines lines.overlong lines.accepted h #[]

/-- The answers as text, each ended by a line feed. -/
def Served.text (s : Served σ) : String :=
  String.ofList (s.answers.toList.flatMap fun line => line ++ ['\n'])

end Host
end OffsetGaps
