/-
# Layouts

A layout says, for each known buffer start, how far the next known start
lies above it. It is a finite map from keys to distances, kept as a list of
entries: no key stands twice, and the order of the entries carries no
meaning.

Key definitions: `Layout.distance`, `Layout.exceeds`, `Layout.span`.
-/
import OffsetGaps.Layout.Key

namespace OffsetGaps

/-- A finite map from keys to distances. -/
structure Layout where
  /-- The entries, each key once. -/
  entries : List (String × Int64) := []
deriving DecidableEq, Repr, Inhabited

namespace Layout

/-- The distance from an offset to the next known one. -/
def distance (l : Layout) (offset : Int64) : Option Int64 :=
  l.entries.lookup (Key.ofOffset offset)

/-- Whether a write of `size` bytes at `offset` reaches the next known
offset. An offset without an entry is never exceeded. -/
def exceeds (l : Layout) (offset size : Int64) : Bool :=
  match l.distance offset with
  | some d => d ≤ size
  | none => false

/-- The sum of all distances, in wrapping 64-bit arithmetic. -/
def span (l : Layout) : Int64 :=
  (l.entries.map Prod.snd).foldl (· + ·) 0

end Layout
end OffsetGaps
