/-
# Numbers in YAML

A text reads as a number if, underscores aside, it is an integer of at most
64 bits, decimal or with a base in front (`0b`, `0o` or a bare `0`, `0x`),
or a decimal fraction with or without an exponent whose value is not beyond
the range of double precision. Of an exponent only so many digits count as
take it to 10000. A text that starts with its point may have underscores
only between digits. Older readers also take groups of digits with colons
between them for a number in base 60.

These rules are assumed: by them the package that writes YAML tells which
texts would be read as numbers and have to be quoted. They are wider than
those of the standard.

Key definitions: `Numeral.isInteger`, `Numeral.isFraction`,
`Numeral.isSexagesimal`.
-/
import OffsetGaps.Text.Decimal

namespace OffsetGaps
namespace Numeral

/-- The value of a digit in bases up to 36, case aside. -/
def digitValue? (c : Char) : Option Nat :=
  if c.isDigit then some (c.toNat - '0'.toNat)
  else if c.isAlpha then some (c.toLower.toNat - 'a'.toNat + 10)
  else none

def value? (base : Nat) (cs : List Char) : Option Nat :=
  cs.foldlM (fun n c =>
    match digitValue? c with
    | some d => if d < base then some (base * n + d) else none
    | none => none) 0

/-- The value of digits in the base that stands in front of them. -/
def basedValue? : List Char → Option Nat
  | [] => none
  | '0' :: mark :: c :: cs =>
    match mark.toLower with
    | 'b' => value? 2 (c :: cs)
    | 'o' => value? 8 (c :: cs)
    | 'x' => value? 16 (c :: cs)
    | _ => value? 8 (mark :: c :: cs)
  | '0' :: cs => value? 8 cs
  | cs => value? 10 cs

def below (bound : Nat) (value : Option Nat) : Bool :=
  match value with
  | some n => n < bound
  | none => false

/-- Whether one or more digits in a base name a signed 64-bit integer behind
a sign. -/
def isSigned (base : Nat) (sign : Char) (cs : List Char) : Bool :=
  !cs.isEmpty && (sign = '+' && below 0x8000000000000000 (value? base cs) ||
    sign = '-' && below 0x8000000000000001 (value? base cs))

/-- Whether a text is an integer of at most 64 bits. A sign stands in front;
behind the marks `0b` and `0o` it is read as well. -/
def isInteger : List Char → Bool
  | '+' :: cs => below 0x8000000000000000 (basedValue? cs)
  | '-' :: cs => below 0x8000000000000001 (basedValue? cs)
  | '0' :: 'b' :: c :: cs => below 0x10000000000000000 (value? 2 (c :: cs)) || isSigned 2 c cs
  | '0' :: 'o' :: c :: cs => below 0x10000000000000000 (value? 8 (c :: cs)) || isSigned 8 c cs
  | cs => below 0x10000000000000000 (basedValue? cs)

def unsigned : List Char → List Char
  | '+' :: cs => cs
  | '-' :: cs => cs
  | cs => cs

/-- The size of an exponent. Once it has reached 10000 further digits do not
count. -/
def exponentSize (digits : List Char) : Nat :=
  digits.foldl (fun n c => if n < 10000 then 10 * n + Decimal.digitValue c else n) 0

/-- The power of ten that an exponent stands for; nothing stands for 0. -/
def exponent? : List Char → Option Int
  | [] => some 0
  | e :: cs =>
    if e = 'e' ∨ e = 'E' then
      let digits := unsigned cs
      if digits.isEmpty || !digits.all Char.isDigit then none
      else
        let n : Int := exponentSize digits
        some (if cs.head? = some '-' then -n else n)
    else none

/-- The number from which on no double-precision number is near. -/
def doubleBound : Nat := Nat.pow 2 1024 - Nat.pow 2 970

/-- Whether digits times a power of ten stay within double precision. -/
def fitsDouble (digits : Nat) (power : Int) : Bool :=
  let places : Int := (Nat.toDigits 10 digits).length + power
  if digits = 0 ∨ places < 309 then true
  else if 310 < places then false
  else if 0 ≤ power then digits * Nat.pow 10 power.toNat < doubleBound
  else digits < doubleBound * Nat.pow 10 (-power).toNat

/-- Whether a text is a decimal fraction within double precision: a sign or
none, digits with a point among them or none, and an exponent or none. -/
def isFraction (cs : List Char) : Bool :=
  let cs := unsigned cs
  let whole := cs.takeWhile Char.isDigit
  let rest := cs.dropWhile Char.isDigit
  let (decimals, rest) := match rest with
    | '.' :: rest => (rest.takeWhile Char.isDigit, rest.dropWhile Char.isDigit)
    | rest => ([], rest)
  match exponent? rest with
  | none => false
  | some e =>
    !(whole ++ decimals).isEmpty &&
      fitsDouble ((value? 10 (whole ++ decimals)).getD 0) (e - decimals.length)

/-- Whether each underscore stands between two digits. -/
def separatesDigits (cs : List Char) : Bool :=
  ((' ' :: cs).zip (cs.zip (cs.tail ++ [' ']))).all fun (before, c, behind) =>
    c != '_' || before.isDigit && behind.isDigit

/-- Whether a text without sign goes on with groups `:n` of a base-60 number,
each at most 59, and perhaps a point and more digits. -/
def isSexagesimalTail : Nat → List Char → Bool
  | 0, _ => false
  | fuel + 1, cs =>
    let next : List Char → Bool
      | [] => true
      | '.' :: rest => rest.all fun c => c.isDigit || c == '_'
      | rest => isSexagesimalTail fuel rest
    match cs with
    | ':' :: c :: d :: rest =>
      c.isDigit &&
        (if d.isDigit then c.toNat ≤ '5'.toNat && next rest else next (d :: rest))
    | [':', c] => c.isDigit
    | _ => false

def isSexagesimal (cs : List Char) : Bool :=
  match unsigned cs with
  | [] => false
  | c :: rest =>
    let tail := rest.dropWhile fun c => c.isDigit || c == '_'
    c.isDigit && isSexagesimalTail (tail.length + 1) tail

end Numeral
end OffsetGaps
