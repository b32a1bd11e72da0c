/-
# Collecting offsets

An accumulator takes offsets one by one and gives their layout once. Null
values are accepted and leave no trace. The first request for the layout
ends the collection, whether it succeeds or not; from then on every call is
refused.

Key definitions: `Accumulator`, `Accumulator.add`, `Accumulator.finalize`.
-/
import OffsetGaps.Layout.Gaps

namespace OffsetGaps

/-- A collection of offsets under way, or one that has ended. -/
inductive Accumulator where
  /-- The offsets taken so far, the latest first; the anchor is not among
  them. -/
  | collecting (taken : List Int64)
  /-- The layout has been asked for. -/
  | finalized
deriving DecidableEq, Repr

inductive AccumulatorError where
  /-- The layout has already been asked for. -/
  | finalized
  /-- Two neighbouring offsets are too far apart. -/
  | overflow (gap : GapOverflow)
deriving DecidableEq, Repr

def AccumulatorError.message : AccumulatorError → String
  | .finalized => "aggregator already finalized"
  | .overflow gap => gap.message

namespace Accumulator

/-- A collection with the anchor only. -/
def empty : Accumulator := .collecting []

instance : Inhabited Accumulator := ⟨empty⟩

/-- Takes an offset; a null is taken without effect. -/
def add (value : Option Int64) : Accumulator → Accumulator × Except AccumulatorError Unit
  | .finalized => (.finalized, .error .finalized)
  | .collecting taken =>
    match value with
    | some offset => (.collecting (offset :: taken), .ok ())
    | none => (.collecting taken, .ok ())

/-- How many values are held, the anchor included. -/
def size : Accumulator → Nat
  | .collecting taken => taken.length + 1
  | .finalized => 0

def isFinalized : Accumulator → Bool
  | .collecting _ => false
  | .finalized => true

/-- Ends the collection and gives the layout. -/
def finalize : Accumulator → Accumulator × Except AccumulatorError Layout
  | .finalized => (.finalized, .error .finalized)
  | .collecting taken => (.finalized, (Layout.ofOffsets taken).mapError .overflow)

end Accumulator
end OffsetGaps
