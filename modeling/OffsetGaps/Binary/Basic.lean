/-
# Binary floating-point numbers

The 64 bits of a double-precision number denote `m · 2^e` with a sign, an
infinity, or no number. Everything is asked of the exact value: `m` is a
natural number, `e` an integer. Comparisons and the cutting of fractions are
exact in the format, so no rounding takes place, but for one constant: the
greatest 64-bit integer is no number of the format, and `2^63` stands for it.

Key definitions: `Binary64`, `Binary64.ofBits`, `Binary64.trunc`,
`Binary64.lt`, `Binary64.equal`, `Binary64.toInt64?`.
-/

namespace OffsetGaps

/-- What the bits of a double-precision number denote. -/
inductive Binary64 where
  /-- The number `m · 2^e`, negated if `negative`. -/
  | finite (negative : Bool) (m : Nat) (e : Int)
  | infinite (negative : Bool)
  | notANumber
deriving DecidableEq, Repr

namespace Binary64

/-- Reads sign, exponent and fraction. The least exponent is shared by the
numbers with and without the hidden bit. -/
def ofBits (bits : UInt64) : Binary64 :=
  let negative := bits.toNat / 0x8000000000000000 = 1
  let exponent : Nat := bits.toNat / 0x10000000000000 % 0x800
  let fraction : Nat := bits.toNat % 0x10000000000000
  if exponent = 2047 then
    if fraction = 0 then .infinite negative else .notANumber
  else if exponent = 0 then .finite negative fraction (-1074)
  else .finite negative (0x10000000000000 + fraction) (exponent - 1075)

def signed (negative : Bool) (magnitude : Nat) : Int :=
  if negative then -(magnitude : Int) else magnitude

def trunc : Binary64 → Binary64
  | .finite negative m e => .finite negative (m / Nat.pow 2 (-e).toNat) (max e 0)
  | x => x

/-- A significand in units of a smaller power of two. -/
def scaled (negative : Bool) (m : Nat) (shift : Int) : Int :=
  signed negative (m * Nat.pow 2 shift.toNat)

/-- What is no number is less than nothing, and nothing is less than it. -/
def lt : Binary64 → Binary64 → Bool
  | .finite negative m e, .finite negative' m' e' =>
    scaled negative m (e - e') < scaled negative' m' (e' - e)
  | .infinite true, .finite _ _ _ => true
  | .infinite true, .infinite false => true
  | .finite _ _ _, .infinite false => true
  | _, _ => false

/-- What is no number is not equal to itself, and the two zeros are equal. -/
def equal : Binary64 → Binary64 → Bool
  | .finite negative m e, .finite negative' m' e' =>
    scaled negative m (e - e') == scaled negative' m' (e' - e)
  | .infinite negative, .infinite negative' => negative == negative'
  | _, _ => false

def le (x y : Binary64) : Bool := x.lt y || x.equal y

def minInt64 : Binary64 := ofBits 0xC3E0000000000000

/-- The greatest 64-bit integer, rounded to the nearest number of the format:
`2^63`. -/
def maxInt64 : Binary64 := ofBits 0x43E0000000000000

/-- The integer that is left if the fraction is dropped. -/
def whole : Binary64 → Int
  | .finite negative m e => signed negative (m * Nat.pow 2 e.toNat / Nat.pow 2 (-e).toNat)
  | _ => 0

/-- The conversion to 64 bits, which is meant for numbers in range. -/
def toInt64 (x : Binary64) : Int64 := Int64.ofInt x.whole

/-- The number as a 64-bit integer, if it is one. -/
def toInt64? (x : Binary64) : Option Int64 :=
  if !x.equal x.trunc || x.lt minInt64 || maxInt64.le x then none else some x.toInt64

end Binary64
end OffsetGaps
