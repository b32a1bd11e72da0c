/-
# The offset map function

The aggregation function that this library offers to hosts: its one
parameter takes nullable integers, its result is the layout of the offsets
it was given. A strict instance refuses negative offsets. A row is checked
in a fixed order (number of arguments, type of the argument, sign) and a row
that is refused changes nothing.

Key definitions: `OffsetMap.descriptor`, `OffsetMap.step`,
`OffsetMap.constructor`.
-/
import OffsetGaps.Host.Cells

namespace OffsetGaps
namespace OffsetMap

def param : Param := { name := "value", type := .integer, nullable := true }

/-- The function as hosts see it. -/
def descriptor : Descriptor :=
  { scope := "wasmati"
    name := "getBufferLocationMap"
    description := "wasmati.getBufferLocationMap(value)"
    params := [param]
    returns := .map }

/-- The offset that a row carries, or none for a null. -/
def readRow (strict : Bool) : List Value → Except HostError (Option Int64)
  | [v] =>
    match param.bindInteger v with
    | .error e => .error (.hostType e)
    | .ok none => .ok none
    | .ok (some n) =>
      if strict && n < 0 then .error (.negativeOffset param.name n) else .ok (some n)
  | args => .error (.arity descriptor.qualifiedName args.length 1)

/-- What a call does to an accumulator. -/
def step (strict : Bool) (call : Call) (a : Accumulator) : Accumulator × Outcome Value :=
  match call with
  | .update args =>
    match readRow strict args with
    | .error e => (a, .failure e)
    | .ok value =>
      let (a, answer) := a.add value
      (a, .ofExcept ((answer.map fun _ => .null).mapError .accumulator))
  | .result =>
    let (a, answer) := a.finalize
    (a, .ofExcept ((answer.map .layout).mapError .accumulator))

def constructor (strict : Bool) : Constructor (Cells Accumulator) :=
  Cells.fresh .empty (step strict)

end OffsetMap
end OffsetGaps
