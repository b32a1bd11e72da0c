/-
# Thresholds of the log

A threshold is the name of a level in any case, with an offset behind it if
wanted: `warn`, `Debug-4`, `error+2`. The name ends at the first sign; the
offset, sign included, is read before the name is looked at, and is added in
wrapping 64-bit arithmetic.

Key definitions: `ThresholdError`, `Threshold.read`.
-/
import OffsetGaps.Host.Log
import OffsetGaps.Text.LetterCase

namespace OffsetGaps

/-- Why a text is no threshold; both causes carry the text. -/
inductive ThresholdError where
  | badOffset (text offset : String) (cause : NumberError)
  | unknownName (text : String)
deriving DecidableEq, Repr

namespace ThresholdError

/-- What both messages start with. -/
def opening (text : String) : String :=
  "invalid --log-level " ++ Quoted.text text ++ ": slog: level string " ++ Quoted.text text ++ ": "

def message : ThresholdError → String
  | .badOffset text offset cause =>
    opening text ++ "strconv.Atoi: parsing " ++ Quoted.text offset ++ ": " ++ cause.message
  | .unknownName text => opening text ++ "unknown name"

end ThresholdError

namespace Threshold

/-- Whether a character starts the offset. -/
def isSign (c : Char) : Bool := c == '+' || c == '-'

def level? (name : List Char) : Option Level :=
  [Level.debug, .info, .warn, .error].find? fun l => l.name.toList == name

/-- The offset behind the name of a level. -/
def readOffset (text : String) (offset : List Char) : Except ThresholdError Int64 :=
  match offset with
  | [] => .ok 0
  | _ =>
    match Decimal.readInt64 offset with
    | .ok n => .ok n
    | .error e => .error (.badOffset text (String.ofList offset) e)

/-- The severity that a text stands for. -/
def read (text : String) : Except ThresholdError Int64 :=
  let cs := text.toList
  match readOffset text (cs.dropWhile fun c => !isSign c) with
  | .error e => .error e
  | .ok offset =>
    match level? ((cs.takeWhile fun c => !isSign c).map capital) with
    | some l => .ok (l.severity + offset)
    | none => .error (.unknownName text)

end Threshold
end OffsetGaps
