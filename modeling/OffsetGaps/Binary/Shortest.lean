/-
# Shortest decimals

The fewest decimal digits that read back as a given binary number. A decimal
reads back if it lies in the interval of reals that round to the number; its
ends belong to the interval if the significand is even. For one digit, two
digits and so on, the two neighbours of the number on that decimal grid are
tried; of two hits the nearer wins, and of two equally near the one with the
even last digit.

The text is positional from 10⁻⁶ up to, and not including, 10²¹, and
scientific elsewhere, with no zero at the front of the exponent.

Key definitions: `Binary64.shortest`, `Binary64.text`.
-/
import OffsetGaps.Binary.Basic
import OffsetGaps.Text.Decimal

namespace OffsetGaps
namespace Binary64

structure Ratio where
  num : Nat
  den : Nat

/-- The ratio `n · 2^a · 10^b`. -/
def Ratio.scaled (n : Nat) (a b : Int) : Ratio :=
  { num := n * Nat.pow 2 a.toNat * Nat.pow 10 b.toNat
    den := Nat.pow 2 (-a).toNat * Nat.pow 10 (-b).toNat }

/-- The reals that round to a number, in quarters of its last place: the
number itself and the distances to the two ends. -/
structure Interval where
  middle : Nat
  below : Nat
  above : Nat
  /-- Whether the ends belong to the interval. -/
  closed : Bool

/-- The interval of `m · 2^e`. Below a power of two the numbers lie twice as
dense, unless it has the least exponent. -/
def interval (m : Nat) (e : Int) : Interval :=
  { middle := 4 * m
    below := if m = 0x10000000000000 ∧ e ≠ -1074 then 1 else 2
    above := 2
    closed := m % 2 = 0 }

/-- Whether `q` units of the decimal grid lie in the interval, where one
quarter of the last place is `u.num / u.den` units. -/
def Interval.contains (i : Interval) (u : Ratio) (q : Nat) : Bool :=
  let lo := (i.middle - i.below) * u.num
  let hi := (i.middle + i.above) * u.num
  let x := q * u.den
  if i.closed then lo ≤ x && x ≤ hi else lo < x && x < hi

/-- The grid point that represents the number, if one of its two neighbours
on the grid reads back. -/
def Interval.pick? (i : Interval) (u : Ratio) : Option Nat :=
  let v := i.middle * u.num
  let q := v / u.den
  let below := v - q * u.den
  let above := (q + 1) * u.den - v
  match i.contains u q, i.contains u (q + 1) with
  | true, true =>
    if below < above then some q
    else if above < below then some (q + 1)
    else if q % 2 = 0 then some q else some (q + 1)
  | true, false => some q
  | false, true => some (q + 1)
  | false, false => none

/-- The number of decimal digits before the point of `m · 2^e`, for numbers
below one less the zeros behind it: the `p` with `10^(p-1) ≤ m · 2^e < 10^p`,
found from `p` downwards. -/
def magnitudeFrom : Nat → Ratio → Int → Int
  | 0, _, p => p
  | fuel + 1, r, p =>
    if r.num * Nat.pow 10 (1 - p).toNat < r.den * Nat.pow 10 (p - 1).toNat then
      magnitudeFrom fuel r (p - 1)
    else p

/-- The decimal magnitude of `m · 2^e`, which lies between 10⁻³²⁴ and
10³⁰⁹. -/
def magnitude (m : Nat) (e : Int) : Int := magnitudeFrom 640 (Ratio.scaled m e 0) 309

/-- Tries grids with one digit more each time, from `digits` on. The answer
`(q, p)` stands for `q · 10^p`. -/
def shortestFrom (i : Interval) (e top : Int) : Nat → Nat → Nat × Int
  | 0, _ => (0, 0)
  | fuel + 1, digits =>
    let p := top - digits
    match i.pick? (Ratio.scaled 1 (e - 2) (-p)) with
    | some q => (q, p)
    | none => shortestFrom i e top fuel (digits + 1)

/-- Takes the zeros off the end of `q · 10^p`. -/
def dropZeros : Nat → Nat × Int → Nat × Int
  | 0, d => d
  | fuel + 1, (q, p) => if q % 10 = 0 ∧ q ≠ 0 then dropZeros fuel (q / 10, p + 1) else (q, p)

/-- The shortest decimal `q · 10^p` of `m · 2^e`; 17 digits always read
back. -/
def shortest (m : Nat) (e : Int) : Nat × Int :=
  if m = 0 then (0, 0)
  else dropZeros 20 (shortestFrom (interval m e) e (magnitude m e) 17 1)

/-- `q · 10^p` without an exponent. -/
def positional (q : Nat) (p : Int) : List Char :=
  let digits := Nat.toDigits 10 q
  if 0 ≤ p then digits ++ List.replicate p.toNat '0'
  else
    let places := (-p).toNat
    let padded := List.replicate (places + 1 - digits.length) '0' ++ digits
    padded.take (padded.length - places) ++ '.' :: padded.drop (padded.length - places)

/-- `q · 10^p` with one digit before the point and an exponent. -/
def scientific (q : Nat) (p : Int) : List Char :=
  let digits := Nat.toDigits 10 q
  let exponent := p + digits.length - 1
  let fraction := match digits.drop 1 with
    | [] => []
    | rest => '.' :: rest
  let sign := if exponent < 0 then '-' else '+'
  digits.take 1 ++ fraction ++ 'e' :: sign :: Nat.toDigits 10 exponent.natAbs

def finiteText (negative : Bool) (m : Nat) (e : Int) : List Char :=
  let (q, p) := shortest m e
  let place := p + (Nat.toDigits 10 q).length
  let body := if q = 0 ∨ (-6 < place ∧ place ≤ 21) then positional q p else scientific q p
  if negative then '-' :: body else body

/-- The name of what has no decimal. -/
def nameOf : Binary64 → String
  | .infinite false => "+Inf"
  | .infinite true => "-Inf"
  | _ => "NaN"

/-- The shortest text of a number, or the name of what has none. -/
def text : Binary64 → Except String (List Char)
  | .finite negative m e => .ok (finiteText negative m e)
  | x => .error (nameOf x)

end Binary64
end OffsetGaps
