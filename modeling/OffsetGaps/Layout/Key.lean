/-
# Keys of offsets

An offset is named by `@` and its decimal form. Each offset has exactly one
key: a text with the right shape but another spelling of the number (leading
zeros, a plus sign, `-0`) is refused.

Key definitions: `Key.ofOffset`, `Key.read`, `KeyError`.
-/
import OffsetGaps.Text.Decimal
import OffsetGaps.Text.Quoted

namespace OffsetGaps

/-- Why a text is not the key of an offset; every cause carries the text. -/
inductive KeyError where
  /-- The text does not start with `@`. -/
  | missingMark (key : String)
  /-- What follows `@` is not a 64-bit integer. -/
  | notInteger (key : String)
  /-- What follows `@` is an integer, but not in its shortest form. -/
  | notCanonical (key : String)
deriving DecidableEq, Repr

def KeyError.message : KeyError → String
  | .missingMark key => Quoted.text key ++ ": missing \"@\" prefix: invalid layout key"
  | .notInteger key => Quoted.text key ++ ": invalid layout key"
  | .notCanonical key => Quoted.text key ++ ": not canonical: invalid layout key"

namespace Key

def chars (offset : Int64) : List Char := '@' :: Decimal.write offset.toInt

def ofOffset (offset : Int64) : String := String.ofList (chars offset)

/-- The offset that a key names. -/
def read (key : String) : Except KeyError Int64 :=
  match key.toList with
  | '@' :: digits =>
    match Decimal.readInt64 digits with
    | .ok offset => if ofOffset offset = key then .ok offset else .error (.notCanonical key)
    | .error _ => .error (.notInteger key)
  | _ => .error (.missingMark key)

end Key
end OffsetGaps
