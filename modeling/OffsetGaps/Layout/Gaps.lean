/-
# From offsets to gaps

The offsets of a stream, with the anchor 0 among them, sorted and without
repetition, cut the number line into gaps. The layout of the stream gives
each offset but the largest the gap above it. A gap may be too wide for a
signed 64-bit distance: the wrapped difference is then negative, and the
stream has no layout.

Key definitions: `landmarks`, `adjacent`, `Layout.ofOffsets`, `GapOverflow`.
-/
import OffsetGaps.Layout.Basic

namespace OffsetGaps

/-- Keeps one of several equal neighbours. -/
def mergeEqual (sorted : List Int64) : List Int64 :=
  sorted.foldr
    (fun a rest =>
      match rest with
      | b :: _ => if a = b then rest else a :: rest
      | [] => [a])
    []

/-- The distinct offsets of a stream in increasing order, the anchor 0 among
them. -/
def landmarks (offsets : List Int64) : List Int64 :=
  mergeEqual ((0 :: offsets).mergeSort fun a b => a ≤ b)

def adjacent (xs : List Int64) : List (Int64 × Int64) := xs.zip xs.tail

/-- A gap between neighbouring offsets that no distance can measure. -/
structure GapOverflow where
  lower : Int64
  /-- The next offset above it. -/
  upper : Int64
deriving DecidableEq, Repr

def GapOverflow.message (g : GapOverflow) : String :=
  "from " ++ Decimal.text g.lower.toInt ++ " to " ++ Decimal.text g.upper.toInt ++
    ": distance overflows int64"

/-- The layout of a stream of offsets, or its lowest gap that is too wide. -/
def Layout.ofOffsets (offsets : List Int64) : Except GapOverflow Layout :=
  let pairs := adjacent (landmarks offsets)
  match pairs.find? fun (a, b) => b - a < 0 with
  | some (a, b) => .error ⟨a, b⟩
  | none => .ok ⟨pairs.map fun (a, b) => (Key.ofOffset a, b - a)⟩

end OffsetGaps
