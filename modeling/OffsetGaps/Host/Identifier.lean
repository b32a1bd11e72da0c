/-
# Identifiers of open instances

An identifier is made from a block of 128 random bits: four bits say that it
is random, two that it is of the common variant, and the rest is taken over.
It is written as 32 hexadecimal digits in groups of 8, 4, 4, 4 and 12.

Blocks come from a supply: first those in a queue, then the numbers of a
counter. An identifier that is in use is passed over.

It is assumed of the package that makes identifiers that it turns 16 bytes
into one in this way and that its random source never fails. Nothing is
assumed of the bits: every finite run of such a source is some queue, and the
theorems are about all supplies. The counter goes through all blocks, so a
draw fails only if no identifier is left, where the program would search for
ever.

Key definitions: `identifier`, `Supply`, `Supply.draw?`.
-/
import OffsetGaps.Text.Quoted

namespace OffsetGaps

/-- Random bits for an identifier. -/
abbrev Block := BitVec 128

/-- The bits of the identifier made from a block. -/
def stamp (b : Block) : Block :=
  let version := (b &&& ~~~(0xF#128 <<< 76)) ||| (0x4#128 <<< 76)
  (version &&& ~~~(0x3#128 <<< 62)) ||| (0x2#128 <<< 62)

def identifier (b : Block) : String :=
  let digits := Quoted.hex 32 (stamp b).toNat
  let group (start length : Nat) : List Char := (digits.drop start).take length
  String.ofList (group 0 8 ++ '-' :: group 8 4 ++ '-' :: group 12 4 ++ '-' :: group 16 4 ++
    '-' :: group 20 12)

structure Supply where
  queue : List Block := []
  /-- The number that makes the first block after the queue. -/
  counter : Nat := 1
deriving Repr

namespace Supply

/-- The first free identifier from the counter on, among `fuel` numbers. -/
def count? (used : List String) : Nat → Nat → Option (String × Supply)
  | 0, _ => none
  | fuel + 1, n =>
    let id := identifier (BitVec.ofNat 128 n)
    if used.contains id then count? used fuel (n + 1) else some (id, { counter := n + 1 })

/-- How many blocks there are. A counter that has made so many has made each
of them once. -/
def period : Nat := Nat.pow 2 128

/-- The first free identifier, from a queue and then from the counter. There
is none only if every identifier is in use. -/
def drawFrom? (used : List String) (counter : Nat) : List Block → Option (String × Supply)
  | [] => count? used period counter
  | b :: rest =>
    let id := identifier b
    if used.contains id then drawFrom? used counter rest
    else some (id, { queue := rest, counter })

/-- The first free identifier and the supply behind it. -/
def draw? (used : List String) (s : Supply) : Option (String × Supply) :=
  drawFrom? used s.counter s.queue

end Supply
end OffsetGaps
