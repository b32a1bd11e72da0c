/-
# Parameters and the values they take

A parameter of type INTEGER takes every machine integer and every
floating-point number that is an integer within 64 bits, and a number literal
that is plain digits with an optional sign. A null is taken as absent where
the parameter allows it. What does not fit is an error that names the type of
the value. Values are tested before they are converted, so that nothing is
rounded, wrapped or cut.

Key definitions: `DataType`, `Param`, `TypeError`, `Param.bindInteger`.
-/
import OffsetGaps.Host.Value

namespace OffsetGaps

inductive DataType where
  /-- Signed 64-bit integers. -/
  | integer
  /-- Maps from texts to integers. -/
  | map
  /-- Any other type, by its number. -/
  | other (code : Int)
deriving DecidableEq, Repr

def DataType.name : DataType → String
  | .integer => "INTEGER"
  | .map => "MAP"
  | .other _ => "ANY"

structure Param where
  name : String
  type : DataType
  nullable : Bool
deriving DecidableEq, Repr

/-- A parameter as it stands in a signature. -/
def Param.text (p : Param) : String :=
  p.name ++ " :: " ++ p.type.name ++ (if p.nullable then "?" else "")

/-- A value that does not fit a parameter. -/
structure TypeError where
  param : String
  want : DataType
  /-- The type name of the value. -/
  got : String
  /-- What is wrong with a value of that type, if there is more to say. -/
  reason : String
deriving DecidableEq, Repr

def TypeError.message (e : TypeError) : String :=
  "parameter " ++ Quoted.text e.param ++ ": cannot bind " ++ e.got ++ " to " ++ e.want.name ++
    (if e.reason.isEmpty then "" else ": " ++ e.reason)

namespace Param

/-- The error for a value that the parameter does not take. -/
def mismatch (p : Param) (v : Value) (reason : String) : TypeError :=
  { param := p.name, want := p.type, got := v.typeName, reason }

def bindNull (p : Param) : Except TypeError (Option Int64) :=
  if p.nullable then .ok none else .error (p.mismatch .null "parameter is not nullable")

/-- Takes the integer that a value of a numeric type stands for. -/
def bindExact (p : Param) (v : Value) (reason : String) :
    Option Int64 → Except TypeError (Option Int64)
  | some n => .ok (some n)
  | none => .error (p.mismatch v reason)

/-- Takes a value as an integer, or as absent. -/
def bindInteger (p : Param) (v : Value) : Except TypeError (Option Int64) :=
  match v with
  | .null => p.bindNull
  | .reference none => p.bindNull
  | .reference (some n) => .ok (some n)
  | .integer n => p.bindExact v "out of range" n.toInt64?
  | .float bits => p.bindExact v "not an integer in range" (Binary64.ofBits bits).toInt64?
  | .number literal =>
    p.bindExact v "not an integer in range" (Decimal.readInt64 literal.toList).toOption
  | _ => .error (p.mismatch v "")

end Param
end OffsetGaps
