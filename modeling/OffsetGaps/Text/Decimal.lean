/-
# Signed 64-bit integers in decimal

An integer is written with the fewest digits, a `-` in front if it is
negative. Reading is more generous: an optional sign and one or more ASCII
digits, leading zeros allowed. Digits are read left to right and the first
problem decides which of the two errors is reported: a character that is no
digit, or a magnitude that no longer fits in 64 bits. Whether the signed
value fits is asked after the last digit.

Key definitions: `Decimal.write`, `Decimal.magnitude`, `Decimal.readInt64`.
-/

namespace OffsetGaps

inductive NumberError where
  /-- The text is not an optional sign followed by one or more digits. -/
  | malformed
  /-- The digits name a number that does not fit. -/
  | outOfRange
deriving DecidableEq, Repr

def NumberError.message : NumberError → String
  | .malformed => "invalid syntax"
  | .outOfRange => "value out of range"

namespace Decimal

/-- The shortest decimal form of an integer. -/
def write : Int → List Char
  | .ofNat n => Nat.toDigits 10 n
  | .negSucc n => '-' :: Nat.toDigits 10 (n + 1)

def text (n : Int) : String := String.ofList (write n)

def digitValue (c : Char) : Nat := c.toNat - '0'.toNat

/-- Reads digits left to right on top of the value `acc` of those already
read, and stops at the first character that is no digit or that takes the
value past 64 bits. -/
def magnitude (acc : Nat) : List Char → Except NumberError Nat
  | [] => .ok acc
  | c :: rest =>
    if c.isDigit then
      let next := 10 * acc + digitValue c
      if next < 0x10000000000000000 then magnitude next rest else .error .outOfRange
    else .error .malformed

/-- Reads an unsigned 64-bit integer of at least one digit. -/
def readUnsigned : List Char → Except NumberError Nat
  | [] => .error .malformed
  | cs => magnitude 0 cs

/-- The non-negative integer with this magnitude, if it fits. -/
def nonnegative (m : Nat) : Except NumberError Int64 :=
  if m < 0x8000000000000000 then .ok (Int64.ofNat m) else .error .outOfRange

/-- The negative of this magnitude, if it fits; the least integer has a
magnitude of its own. -/
def negative (m : Nat) : Except NumberError Int64 :=
  if m ≤ 0x8000000000000000 then .ok (Int64.ofInt (-(m : Int))) else .error .outOfRange

def readInt64 : List Char → Except NumberError Int64
  | '+' :: digits => (readUnsigned digits).bind nonnegative
  | '-' :: digits => (readUnsigned digits).bind negative
  | digits => (readUnsigned digits).bind nonnegative

end Decimal
end OffsetGaps
