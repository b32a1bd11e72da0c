/-
# Observed instances

Around an instance lie layers that watch its calls: a logging layer counts
the rows and writes a log record for each call that returns, a recording
layer keeps a tape of the calls that returned, and a tag notes that a call
passes. No layer changes a call or its outcome. Calls go through the layers
from the outermost to the kernel; records are written on the way back, and
with the arguments that are found then.

The ledger holds everything a call can change: the environment of the
kernels, the log, the trace, and the counters and tapes of the layers.

Key definitions: `Ledger`, `Observer`, `Layer`, `Instance`,
`Instance.perform`.
-/
import OffsetGaps.Host.Call
import OffsetGaps.Host.Log

namespace OffsetGaps

/-- A call on a tape. -/
structure Recorded where
  call : Call
  error : Option HostError
deriving Repr

/-- A remark in the trace. -/
inductive TraceEvent where
  /-- A recording layer was put around an instance of a function. -/
  | recording (function : String)
  /-- A tag was put around an instance of a function. -/
  | tagging (label function : String)
  /-- A call passes a tag. -/
  | passing (label : String) (call : Call)
deriving Repr

def TraceEvent.text : TraceEvent → String
  | .recording function => "record " ++ function
  | .tagging label function => label ++ " new " ++ function
  | .passing label (.update _) => label ++ " update"
  | .passing label .result => label ++ " result"

/-- Everything that a call can change. -/
structure Ledger (σ : Type) where
  env : Env σ
  log : Array LogRecord := #[]
  trace : Array TraceEvent := #[]
  /-- The rows that each logging layer has counted. -/
  rows : Array Nat := #[]
  /-- The tapes of the recording layers. -/
  tapes : Array (Array Recorded) := #[]

/-- A kind of layer. -/
inductive Observer where
  | logging
  | recording
  | tagging (label : String)
deriving DecidableEq, Repr

inductive Layer where
  /-- Logs calls of a function and counts rows in a slot of the ledger. -/
  | logging (slot : Nat) (function : String)
  /-- Keeps calls on a tape of the ledger. -/
  | recording (slot : Nat)
  | tagging (label : String)
deriving DecidableEq, Repr

/-- A kernel in its layers, the outermost first. -/
structure Instance (σ : Type) where
  kernel : Kernel σ
  layers : List Layer

namespace Ledger

variable {σ : Type}

/-- The log record of a call that returned. -/
def callRecord (function : String) (call : Call) (rows : Nat) : Option HostError → LogRecord
  | none =>
    { level := .debug
      message := "aggregation"
      attributes := [("op", .text call.name), ("function", .text function), ("rows", .count rows)] }
  | some e =>
    { level := .error
      message := "aggregation failed"
      attributes := [("op", .text call.name), ("function", .text function), ("rows", .count rows),
        ("error", .text e.message)] }

def countRow (slot : Nat) (call : Call) (l : Ledger σ) : Ledger σ :=
  match call with
  | .update _ => { l with rows := l.rows.modify slot (· + 1) }
  | .result => l

def logCall (slot : Nat) (function : String) (call : Call) (error : Option HostError)
    (l : Ledger σ) : Ledger σ :=
  let l := l.countRow slot call
  { l with log := l.log.push (callRecord function call (l.rows.getD slot 0) error) }

/-- Puts a call that returned on a tape. -/
def tapeCall (slot : Nat) (call : Call) (error : Option HostError) (l : Ledger σ) : Ledger σ :=
  { l with tapes := l.tapes.modify slot (·.push ⟨call, error⟩) }

/-- What a layer does after a call. A call that was aborted leaves no
trace. -/
def observe (layer : Layer) (call : Call) (outcome : Outcome Value) (l : Ledger σ) : Ledger σ :=
  match layer, outcome with
  | _, .abort _ => l
  | .logging slot function, .value _ => l.logCall slot function call none
  | .logging slot function, .failure e => l.logCall slot function call (some e)
  | .recording slot, .value _ => l.tapeCall slot call none
  | .recording slot, .failure e => l.tapeCall slot call (some e)
  | .tagging _, _ => l

/-- What a layer does before a call. -/
def announce (layer : Layer) (call : Call) (l : Ledger σ) : Ledger σ :=
  match layer with
  | .tagging label => { l with trace := l.trace.push (.passing label call) }
  | _ => l

/-- Calls a kernel through layers. -/
def perform (kernel : Kernel σ) : List Layer → Call → Ledger σ → Ledger σ × Outcome Value
  | [], call, l =>
    let (env, outcome) := kernel call l.env
    ({ l with env }, outcome)
  | layer :: inner, call, l =>
    let (l', outcome) := perform kernel inner call (l.announce layer call)
    (l'.observe layer (kernel.left l.env call) outcome, outcome)

def attach (function : String) (o : Observer) (l : Ledger σ) : Layer × Ledger σ :=
  match o with
  | .logging => (.logging l.rows.size function, { l with rows := l.rows.push 0 })
  | .recording =>
    (.recording l.tapes.size,
      { l with tapes := l.tapes.push #[], trace := l.trace.push (.recording function) })
  | .tagging label =>
    (.tagging label, { l with trace := l.trace.push (.tagging label function) })

/-- Makes the layers for an instance of a function; the first observer is
outermost, and the last is attached first. -/
def attachAll (function : String) : List Observer → Ledger σ → List Layer × Ledger σ
  | [], l => ([], l)
  | o :: rest, l =>
    let (inner, l) := attachAll function rest l
    let (layer, l) := l.attach function o
    (layer :: inner, l)

def wipe (slot : Nat) (l : Ledger σ) : Ledger σ :=
  { l with tapes := l.tapes.modify slot fun _ => #[] }

end Ledger

namespace Instance

variable {σ : Type}

def perform (inst : Instance σ) (call : Call) (l : Ledger σ) : Ledger σ × Outcome Value :=
  Ledger.perform inst.kernel inst.layers call l

end Instance
end OffsetGaps
