/-
# Log records

A record has a level, a message and attributes. It is kept if its level is
at least the threshold of its reader. As text it is one line of `key=value`
fields; a value is quoted if it is empty or would otherwise blur the line.

Key definitions: `Level`, `LogRecord`, `LogRecord.line`.
-/
import OffsetGaps.Text.Blank
import OffsetGaps.Text.Decimal
import OffsetGaps.Text.Quoted

namespace OffsetGaps

/-- How grave a record is. -/
inductive Level where
  | debug
  | info
  | warn
  | error
deriving DecidableEq, Repr

namespace Level

/-- The place of a level on the scale of thresholds. -/
def severity : Level → Int64
  | .debug => -4
  | .info => 0
  | .warn => 4
  | .error => 8

def name : Level → String
  | .debug => "DEBUG"
  | .info => "INFO"
  | .warn => "WARN"
  | .error => "ERROR"

end Level

inductive LogValue where
  | count (n : Nat)
  | text (s : String)
deriving DecidableEq, Repr

structure LogRecord where
  level : Level
  message : String
  attributes : List (String × LogValue)
deriving DecidableEq, Repr

/-- Whether a character forces quotes around a value. -/
def forcesQuotes (c : Char) : Bool :=
  if c.toNat < 0x80 then c == ' ' || c == '=' || c == '"' || c.toNat < 0x20
  else isBlank c || c.toNat == 0xFFFD || !isPrintable c

/-- A value in a line. -/
def fieldText (s : String) : String :=
  if s.isEmpty || s.toList.any forcesQuotes then Quoted.text s else s

namespace LogRecord

def valueText : LogValue → String
  | .count n => Decimal.text n
  | .text s => fieldText s

def passes (threshold : Int64) (r : LogRecord) : Bool := threshold ≤ r.level.severity

/-- A record as a line, without its line feed. -/
def line (r : LogRecord) : String :=
  "level=" ++ r.level.name ++ " msg=" ++ fieldText r.message ++
    String.join (r.attributes.map fun (key, v) => " " ++ key ++ "=" ++ valueText v)

end LogRecord
end OffsetGaps
