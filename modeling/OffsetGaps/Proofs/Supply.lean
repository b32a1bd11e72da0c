/-
# The identifiers of a supply

A supply is a stream of identifiers: those of the blocks in its queue, then
those that its counter makes. Drawing takes the first of them that is not in
use, and leaves the stream behind it. The counter comes past every block, so
a draw fails only if every identifier there is has been issued.

Key definitions: `Supply.ids`, `Supply.FirstFree`.
Key theorems: `Supply.draw_eq_some`, `Supply.draw_eq_none`.
-/
import Mathlib.Data.Nat.Notation
import OffsetGaps.Host.Identifier

namespace OffsetGaps
namespace Supply

/-- The blocks of a supply in the order in which they are drawn. -/
def block (s : Supply) (n : ℕ) : Block :=
  s.queue[n]?.getD (BitVec.ofNat 128 (s.counter + (n - s.queue.length)))

/-- The identifiers of a supply, whether in use or not. -/
def ids (s : Supply) (n : ℕ) : String := identifier (s.block n)

/-- Number `n` is the first identifier of the supply that is not in use. -/
structure FirstFree (s : Supply) (used : List String) (n : ℕ) : Prop where
  free : s.ids n ∉ used
  before : ∀ m < n, s.ids m ∈ used

variable {used : List String} {s t : Supply} {id : String} {n : ℕ}

theorem ids_queue_succ (b : Block) (rest : List Block) (counter n : ℕ) :
    (⟨b :: rest, counter⟩ : Supply).ids (n + 1) = (⟨rest, counter⟩ : Supply).ids n := by
  simp [ids, block]

theorem ids_counter_succ (counter n : ℕ) :
    (⟨[], counter⟩ : Supply).ids (n + 1) = (⟨[], counter + 1⟩ : Supply).ids n := by
  have hsum : counter + (n + 1) = counter + 1 + n := by omega
  simp [ids, block, hsum]

theorem FirstFree.unique {m : ℕ} (hn : s.FirstFree used n) (hm : s.FirstFree used m) : n = m := by
  rcases Nat.lt_trichotomy n m with hlt | heq | hlt
  · exact absurd (hm.before n hlt) hn.free
  · exact heq
  · exact absurd (hn.before m hlt) hm.free

/-- An identifier in use is passed over. -/
theorem FirstFree.skip (hnext : ∀ n, s.ids (n + 1) = t.ids n) (hused : s.ids 0 ∈ used)
    (ht : t.FirstFree used n) : s.FirstFree used (n + 1) where
  free := by rw [hnext]; exact ht.free
  before m hm := by
    cases m with
    | zero => exact hused
    | succ m => rw [hnext]; exact ht.before m (by omega)

/-- What a draw gives: the first free identifier, and the supply behind it. -/
def Draws (s : Supply) (used : List String) (id : String) (s' : Supply) : Prop :=
  ∃ n, s.FirstFree used n ∧ id = s.ids n ∧ ∀ m, s'.ids m = s.ids (n + 1 + m)

theorem Draws.skip {s' : Supply} (hnext : ∀ n, s.ids (n + 1) = t.ids n) (hused : s.ids 0 ∈ used)
    (ht : t.Draws used id s') : s.Draws used id s' := by
  obtain ⟨n, hfirst, hid, hrest⟩ := ht
  refine ⟨n + 1, hfirst.skip hnext hused, by rw [hnext, hid], fun m => ?_⟩
  rw [hrest m, ← hnext]
  congr 1
  omega

theorem draws_first {s' : Supply} (hfree : s.ids 0 ∉ used) (hnext : ∀ n, s.ids (n + 1) = s'.ids n) :
    s.Draws used (s.ids 0) s' :=
  ⟨0, ⟨hfree, fun m hm => absurd hm (by omega)⟩, rfl,
    fun m => by rw [← hnext]; congr 1; omega⟩

theorem count_eq_some {s' : Supply} : ∀ fuel counter : ℕ,
    count? used fuel counter = some (id, s') → Draws ⟨[], counter⟩ used id s'
  | 0, _, h => by cases h
  | fuel + 1, counter, h => by
    rw [count?] at h
    split at h
    · rename_i hused
      have hmem := List.contains_iff_mem.mp hused
      exact (count_eq_some fuel (counter + 1) h).skip (ids_counter_succ counter) hmem
    · rename_i hfree
      have hmem := fun hmem => hfree (List.contains_iff_mem.mpr hmem)
      obtain ⟨rfl, rfl⟩ := Prod.mk.inj (Option.some.inj h)
      exact draws_first hmem (ids_counter_succ counter)

theorem drawFrom_eq_some {counter : ℕ} {s' : Supply} : ∀ queue : List Block,
    drawFrom? used counter queue = some (id, s') → Draws ⟨queue, counter⟩ used id s'
  | [], h => count_eq_some _ _ h
  | b :: rest, h => by
    rw [drawFrom?] at h
    split at h
    · rename_i hused
      have hmem := List.contains_iff_mem.mp hused
      exact (drawFrom_eq_some rest h).skip (ids_queue_succ b rest counter) hmem
    · rename_i hfree
      have hmem := fun hmem => hfree (List.contains_iff_mem.mpr hmem)
      obtain ⟨rfl, rfl⟩ := Prod.mk.inj (Option.some.inj h)
      exact draws_first hmem (ids_queue_succ b rest counter)

/-- **A draw gives the first free identifier**, and what is left is the
stream behind it. -/
theorem draw_eq_some {s' : Supply} (h : s.draw? used = some (id, s')) : s.Draws used id s' :=
  drawFrom_eq_some s.queue h

theorem count_eq_none : ∀ fuel counter : ℕ, count? used fuel counter = none →
    ∀ n < fuel, identifier (BitVec.ofNat 128 (counter + n)) ∈ used
  | 0, _, _, _, hn => by omega
  | fuel + 1, counter, h, n, hn => by
    rw [count?] at h
    split at h
    · rename_i hused
      cases n with
      | zero => simpa using hused
      | succ n =>
        have hsum : counter + (n + 1) = counter + 1 + n := by omega
        rw [hsum]
        exact count_eq_none fuel (counter + 1) h n (by omega)
    · cases h

/-- A draw fails only if every identifier is in use. -/
theorem draw_eq_none (h : s.draw? used = none) (b : Block) : identifier b ∈ used := by
  have hcount : ∀ queue : List Block, drawFrom? used s.counter queue = none →
      count? used period s.counter = none := by
    intro queue hqueue
    induction queue with
    | nil => exact hqueue
    | cons b rest ih =>
      rw [drawFrom?] at hqueue
      split at hqueue
      · exact ih hqueue
      · cases hqueue
  -- the counter makes the block `b` so many steps from where it stands
  have hb : BitVec.ofNat 128 (s.counter + (b - BitVec.ofNat 128 s.counter).toNat) = b := by
    rw [BitVec.ofNat_add, BitVec.ofNat_toNat, BitVec.setWidth_eq, BitVec.add_comm, BitVec.sub_add_cancel]
  have hused := count_eq_none period s.counter (hcount s.queue h) _
    (b - BitVec.ofNat 128 s.counter).isLt
  rwa [hb] at hused

end Supply
end OffsetGaps
