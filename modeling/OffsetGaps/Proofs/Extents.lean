/-
# Writes and spans

Two questions are put to a layout. Does a write that starts at an offset
reach the next known one (`Layout.exceeds`)? The layout looks at one
distance, the one at the offset; since this is the distance to the least
known offset above, the answer is right about all known offsets. And how
wide is the layout (`Layout.span`)? The distances are added in wrapping
64-bit arithmetic, one entry after the other. The sum is the true one cut to
64 bits, so the order of the entries does not matter; over the gaps of a
stream the true sum telescopes to the largest known offset less the smallest.
That range is below 2^64, so a sum that has wrapped is negative, and no other
is.

Key definitions: `width`.
Key theorems: `Layout.Describes.exceeds_iff`, `Layout.span_eq_ofInt_sum`,
`sum_gaps`, `span_of_ofOffsets`, `Accumulator.exceeds_iff_reaches_known`,
`Accumulator.span_telescopes`.
-/
import OffsetGaps.Proofs.Accumulator

namespace OffsetGaps

/-! ### Writes that reach the next known offset -/

namespace Layout.Describes

variable {l m : Layout} {S T : Finset ℤ} {offset size : Int64}

/-- A write exceeds its buffer exactly when it starts at an element of the
set and reaches any element above; the end of the write is a whole number,
which may lie beyond the 64-bit range. -/
theorem exceeds_iff (h : l.Describes S) :
    l.exceeds offset size = true ↔
      offset.toInt ∈ S ∧ ∃ o ∈ S, offset.toInt < o ∧ o ≤ offset.toInt + size.toInt := by
  unfold Layout.exceeds
  cases hd : l.distance offset with
  | none =>
    simp only [Bool.false_eq_true, false_iff]
    rintro ⟨hmem, o, ho, hlt, -⟩
    have hsome := h.isSome_distance_iff.mpr ⟨hmem, o, ho, hlt⟩
    simp [hd] at hsome
  | some d =>
    have hnext := h.distance_eq_some_iff.mp hd
    simp only [decide_eq_true_eq, Int64.le_iff_toInt_le]
    constructor
    · intro hle
      exact ⟨hnext.left_mem, _, hnext.right_mem, hnext.lt, by omega⟩
    · rintro ⟨-, o, ho, hlt, hreach⟩
      -- the gap ends at the least element above, so not behind `o`
      have hleast := hnext.least ho hlt
      omega

theorem exceeds_mono (h : l.Describes S) (h' : m.Describes T) (hset : S ⊆ T) {larger : Int64}
    (hsize : size.toInt ≤ larger.toInt) (hexceeds : l.exceeds offset size = true) :
    m.exceeds offset larger = true := by
  obtain ⟨hmem, o, ho, hlt, hreach⟩ := h.exceeds_iff.mp hexceeds
  exact h'.exceeds_iff.mpr ⟨hset hmem, o, hset ho, hlt, by omega⟩

theorem exceeds_of_nonpos (h : l.Describes S) (hsize : size.toInt ≤ 0) :
    l.exceeds offset size = false := by
  rw [Bool.eq_false_iff]
  intro hexceeds
  obtain ⟨-, o, -, hlt, hreach⟩ := h.exceeds_iff.mp hexceeds
  omega

end Layout.Describes

namespace Accumulator

/-- **A write exceeds its buffer when it reaches a known offset.** In the
layout of a stream of offsets and nulls, a write of `size` bytes at `offset`
exceeds exactly when `offset` is known and some known offset lies above it
and not above the end of the write, counted in whole numbers. So a longer
write exceeds if a shorter one does, a write of no bytes or less never does,
and more known offsets never lift an excess. -/
theorem exceeds_iff_reaches_known {stream : List (Option Int64)} {l : Layout}
    (h : collect stream = .ok l) (offset size : Int64) :
    (l.exceeds offset size = true ↔
      offset.toInt ∈ known stream.reduceOption ∧
        ∃ o ∈ known stream.reduceOption,
          offset.toInt < o ∧ o ≤ offset.toInt + size.toInt) ∧
    (∀ larger : Int64, size ≤ larger →
      l.exceeds offset size = true → l.exceeds offset larger = true) ∧
    (size ≤ 0 → l.exceeds offset size = false) ∧
    ∀ (more : List (Option Int64)) (m : Layout), collect more = .ok m →
      known stream.reduceOption ⊆ known more.reduceOption →
        l.exceeds offset size = true → m.exceeds offset size = true := by
  have hl := describes_of_collect h
  refine ⟨hl.exceeds_iff, fun larger hsize hexceeds => ?_, fun hsize => ?_,
    fun more m hm hset hexceeds => ?_⟩
  · exact hl.exceeds_mono hl (Finset.Subset.refl _) (Int64.le_iff_toInt_le.mp hsize) hexceeds
  · exact hl.exceeds_of_nonpos (by simpa using Int64.le_iff_toInt_le.mp hsize)
  · exact hl.exceeds_mono (describes_of_collect hm) hset le_rfl hexceeds

/-- A write whose end lies beyond the 64-bit range reaches the largest number,
and still does with one known offset more. At that number no write exceeds,
and below it none with a negative size. -/
theorem exceeds_iff_reaches_known_extremes :
    ∃ l m : Layout,
      collect [some 9223372036854775806, none, some Int64.maxValue] = .ok l ∧
      collect [some Int64.maxValue, some 9223372036854775806, some (-5)] = .ok m ∧
      l.exceeds 9223372036854775806 Int64.maxValue = true ∧
      m.exceeds 9223372036854775806 Int64.maxValue = true ∧
      l.exceeds Int64.maxValue Int64.maxValue = false ∧
      l.exceeds 9223372036854775806 (-1) = false := by
  let l : Layout := ⟨[("@0", 9223372036854775806), ("@9223372036854775806", 1)]⟩
  let m : Layout := ⟨[("@-5", 5), ("@0", 9223372036854775806), ("@9223372036854775806", 1)]⟩
  have hl : collect [some 9223372036854775806, none, some Int64.maxValue] = .ok l := by cbv
  have hm : collect [some Int64.maxValue, some 9223372036854775806, some (-5)] = .ok m := by cbv
  obtain ⟨hreach, -, -, hmore⟩ :=
    exceeds_iff_reaches_known hl 9223372036854775806 Int64.maxValue
  have hexceeds := hreach.mpr ⟨by decide, 9223372036854775807, by decide, by decide, by decide⟩
  obtain ⟨hlast, -⟩ := exceeds_iff_reaches_known hl Int64.maxValue Int64.maxValue
  obtain ⟨-, -, hnone, -⟩ := exceeds_iff_reaches_known hl 9223372036854775806 (-1)
  refine ⟨l, m, hl, hm, hexceeds, hmore _ m hm (by decide) hexceeds, ?_, hnone (by decide)⟩
  rw [Bool.eq_false_iff]
  intro hany
  obtain ⟨-, o, ho, hlt, -⟩ := hlast.mp hany
  have hbound := bounds_of_mem_known ho
  rw [Int64.toInt_maxValue] at hlt
  omega

end Accumulator

/-! ### The sum of all distances -/

namespace Layout

theorem foldl_add_eq (ds : List Int64) (acc : Int64) :
    ds.foldl (· + ·) acc = acc + Int64.ofInt (ds.map Int64.toInt).sum := by
  induction ds generalizing acc with
  | nil => simp
  | cons d ds ih =>
    rw [List.foldl_cons, ih, List.map_cons, List.sum_cons, Int64.ofInt_add, Int64.ofInt_toInt,
      Int64.add_assoc]

/-- The wrapped sum is the true sum, cut to 64 bits once at the end. -/
theorem span_eq_ofInt_sum (l : Layout) :
    l.span = Int64.ofInt (l.entries.map fun e => e.2.toInt).sum := by
  unfold span
  rw [foldl_add_eq, List.map_map]
  simp [Function.comp_def]

theorem span_of_perm {l m : Layout} (h : l.entries.Perm m.entries) : l.span = m.span := by
  rw [span_eq_ofInt_sum, span_eq_ofInt_sum, (h.map fun e => e.2.toInt).sum_eq]

end Layout

/-- The gaps of a list add up to its last element less its first. -/
theorem sum_gaps (x : Int64) (xs : List Int64) :
    ((adjacent (x :: xs)).map fun p => p.2.toInt - p.1.toInt).sum =
      ((x :: xs).getLast (List.cons_ne_nil x xs)).toInt - x.toInt := by
  induction xs generalizing x with
  | nil => simp [adjacent]
  | cons y rest ih =>
    rw [adjacent_cons_cons, List.map_cons, List.sum_cons, ih y, List.getLast_cons_cons]
    simp only
    omega

/-- The landmarks begin with the smallest known offset and end with the
largest. -/
theorem landmarks_ends {offsets : List Int64} {x : Int64} {xs : List Int64}
    (h : landmarks offsets = x :: xs) :
    (known offsets).min' (known_nonempty offsets) = x.toInt ∧
      (known offsets).max' (known_nonempty offsets) =
        ((x :: xs).getLast (List.cons_ne_nil x xs)).toInt := by
  have hsorted : (x :: xs).Pairwise (· ≤ ·) := by
    rw [← h]
    exact (landmarks_pairwise offsets).imp Int64.le_of_lt
  have hmem : ∀ {o : Int64}, o ∈ x :: xs → o.toInt ∈ known offsets := by
    intro o ho
    rw [← h] at ho
    exact mem_landmarks.mp ho
  have : Std.Refl (fun a b : Int64 => a ≤ b) := ⟨Int64.le_refl⟩
  rw [Finset.min'_eq_iff, Finset.max'_eq_iff]
  refine ⟨⟨hmem List.mem_cons_self, fun z hz => ?_⟩, ⟨hmem (List.getLast_mem _), fun z hz => ?_⟩⟩
  · obtain ⟨o, ho, rfl⟩ := exists_landmark hz
    rw [h] at ho
    exact Int64.le_iff_toInt_le.mp (hsorted.rel_head ho)
  · obtain ⟨o, ho, rfl⟩ := exists_landmark hz
    rw [h] at ho
    exact Int64.le_iff_toInt_le.mp (hsorted.rel_getLast ho)

/-- The largest known offset of a stream less the smallest. -/
def width (offsets : List Int64) : ℤ :=
  (known offsets).max' (known_nonempty offsets) - (known offsets).min' (known_nonempty offsets)

theorem width_bounds (offsets : List Int64) : 0 ≤ width offsets ∧ width offsets < 2 ^ 64 := by
  have hmin := bounds_of_mem_known ((known offsets).min'_mem (known_nonempty offsets))
  have hmax := bounds_of_mem_known ((known offsets).max'_mem (known_nonempty offsets))
  have hle := (known offsets).min'_le _ ((known offsets).max'_mem (known_nonempty offsets))
  unfold width
  omega

/-- The distances of a stream add up to the width of its known offsets. -/
theorem sum_of_ofOffsets {offsets : List Int64} {l : Layout}
    (h : Layout.ofOffsets offsets = .ok l) :
    (l.entries.map fun e => e.2.toInt).sum = width offsets := by
  obtain ⟨hfit, rfl⟩ := ofOffsets_eq_ok_iff.mp h
  have hgaps : ∀ p ∈ adjacent (landmarks offsets),
      (p.2 - p.1).toInt = p.2.toInt - p.1.toInt := fun p hp =>
    toInt_gap (mem_adjacent_landmarks.mp hp).lt (hfit p.1 p.2 hp)
  rw [List.map_map]
  show ((adjacent (landmarks offsets)).map fun p => (p.2 - p.1).toInt).sum = width offsets
  rw [List.map_congr_left hgaps]
  cases hm : landmarks offsets with
  | nil =>
    have hzero : (0 : Int64) ∈ landmarks offsets := mem_landmarks.mpr (zero_mem_known offsets)
    simp [hm] at hzero
  | cons x xs =>
    obtain ⟨hmin, hmax⟩ := landmarks_ends hm
    rw [sum_gaps, width, hmin, hmax]

theorem span_of_ofOffsets {offsets : List Int64} {l : Layout}
    (h : Layout.ofOffsets offsets = .ok l) : l.span = Int64.ofInt (width offsets) := by
  rw [Layout.span_eq_ofInt_sum, sum_of_ofOffsets h]

/-- A number below 2^64, cut to 64 bits, is itself or negative. -/
theorem toInt_ofInt_of_bounds {n : ℤ} (hlow : 0 ≤ n) (hhigh : n < 2 ^ 64) :
    ((Int64.ofInt n).toInt = n ↔ n ≤ 2 ^ 63 - 1) ∧
      ((Int64.ofInt n).toInt < 0 ↔ 2 ^ 63 - 1 < n) := by
  have hwrap : (Int64.ofInt n).toInt = n.bmod (2 ^ 64) := Int64.toInt_ofInt
  rw [Int.bmod] at hwrap
  constructor
  · omega
  · omega

namespace Accumulator

/-- **The span telescopes.** In any layout the span is the sum of all
distances cut to 64 bits, whatever order the entries come in. In the layout
of a stream it is the largest known offset less the smallest, cut to 64 bits:
this range itself exactly when it is at most 2^63 - 1, and negative exactly
when it is more. -/
theorem span_telescopes (l : Layout) :
    l.span = Int64.ofInt (l.entries.map fun e => e.2.toInt).sum ∧
    (∀ order : List (String × Int64), order.Perm l.entries → Layout.span ⟨order⟩ = l.span) ∧
    ∀ stream : List (Option Int64), collect stream = .ok l →
      l.span = Int64.ofInt (width stream.reduceOption) ∧
      (l.span.toInt = width stream.reduceOption ↔ width stream.reduceOption ≤ 2 ^ 63 - 1) ∧
      (l.span.toInt < 0 ↔ 2 ^ 63 - 1 < width stream.reduceOption) := by
  refine ⟨l.span_eq_ofInt_sum, fun order hperm => Layout.span_of_perm hperm, ?_⟩
  intro stream h
  have hspan := span_of_ofOffsets (collect_eq_ok_iff.mp h)
  obtain ⟨hlow, hhigh⟩ := width_bounds stream.reduceOption
  rw [hspan]
  exact ⟨rfl, toInt_ofInt_of_bounds hlow hhigh⟩

/-- The entries of a layout in two orders, and a layout over the whole range,
whose span has wrapped. -/
theorem span_telescopes_over_whole_range :
    ∃ l m : Layout, collect [some 16, some (-8), some 40] = .ok l ∧
      l.span.toInt = 48 ∧ Layout.span ⟨l.entries.reverse⟩ = l.span ∧
      collect [some Int64.minValue, some (-1), some Int64.maxValue] = .ok m ∧
      m.span.toInt < 0 := by
  let l : Layout := ⟨[("@-8", 8), ("@0", 16), ("@16", 24)]⟩
  let m : Layout :=
    ⟨[("@-9223372036854775808", 9223372036854775807), ("@-1", 1), ("@0", 9223372036854775807)]⟩
  have hl : collect [some 16, some (-8), some 40] = .ok l := by cbv
  have hm : collect [some Int64.minValue, some (-1), some Int64.maxValue] = .ok m := by cbv
  obtain ⟨-, horder, hstream⟩ := span_telescopes l
  obtain ⟨-, hexact, -⟩ := hstream _ hl
  obtain ⟨-, -, hwrapped⟩ := (span_telescopes m).2.2 _ hm
  refine ⟨l, m, hl, (hexact.mpr (by decide)).trans (by decide), ?_, hm, hwrapped.mpr (by decide)⟩
  exact horder _ (List.reverse_perm l.entries)

end Accumulator
end OffsetGaps
