/-
# Errors of the host layer

Everything that a call of the host layer can report, as a cause with its
details. An error of a row is wrapped with the number of the row; the cause
underneath stays visible.

Key definitions: `HostError`, `HostError.message`, `HostError.cause`.
-/
import OffsetGaps.Host.Param
import OffsetGaps.Layout.Accumulator

namespace OffsetGaps

inductive HostError where
  | accumulator (e : AccumulatorError)
  | unknownFunction (name : String)
  | duplicateFunction (name : String)
  /-- A function needs a name and a constructor. -/
  | invalidFunction (name : String)
  | unknownInstance (id : String)
  | hostType (e : TypeError)
  | arity (function : String) (got want : Nat)
  | negativeOffset (param : String) (value : Int64)
  /-- The caller has given up. -/
  | cancelled
  /-- An error of a function's own making. -/
  | custom (text : String)
  /-- The row with this number failed. -/
  | row (index : Nat) (cause : HostError)
deriving DecidableEq, Repr

namespace HostError

def message : HostError → String
  | .accumulator e => e.message
  | .unknownFunction name => name ++ ": unknown aggregation function"
  | .duplicateFunction name => name ++ ": aggregation function already registered"
  | .invalidFunction name =>
    Quoted.text name ++ ": name and constructor are required: invalid aggregation function"
  | .unknownInstance id => id ++ ": unknown aggregation instance"
  | .hostType e => e.message
  | .arity function got want =>
    function ++ ": got " ++ Decimal.text got ++ ", want " ++ Decimal.text want ++
      ": wrong number of arguments"
  | .negativeOffset param value =>
    param ++ " = " ++ Decimal.text value.toInt ++ ": negative offset"
  | .cancelled => "context canceled"
  | .custom text => text
  | .row index cause => "row " ++ Decimal.text index ++ ": " ++ message cause

/-- The error without the rows around it. -/
def cause : HostError → HostError
  | .row _ e => cause e
  | e => e

end HostError
end OffsetGaps
