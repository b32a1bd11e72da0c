/-
# Landmarks and the set of known offsets

A stream of offsets is known by the finite set of whole numbers in it, the
anchor 0 among them (`known`). The list `landmarks` is that set in strictly
increasing order, so it depends on nothing else, and its pairs of neighbours
(`adjacent`) are the pairs of an element and the least one above it
(`NextIn`). The program subtracts neighbours in wrapping 64-bit arithmetic;
for `a < b` the difference is negative exactly when the true one does not
fit, and is the true one otherwise.

Key definitions: `known`, `NextIn`.
Key theorems: `landmarks_pairwise`, `mem_landmarks`, `landmarks_congr`,
`length_landmarks`, `mem_adjacent_landmarks`, `gap_neg_iff`, `toInt_gap`.
-/
import Mathlib.Algebra.Ring.Int.Defs
import Mathlib.Data.Finset.Max
import Mathlib.Data.List.Sort
import Mathlib.Order.Bounds.Basic
import OffsetGaps.Layout.Gaps

namespace OffsetGaps

/-! ### The list of landmarks -/

theorem mergeEqual_cons (a : Int64) (xs : List Int64) :
    mergeEqual (a :: xs) =
      match mergeEqual xs with
      | b :: rest => if a = b then b :: rest else a :: b :: rest
      | [] => [a] := by
  show (match mergeEqual xs with
    | b :: _ => if a = b then mergeEqual xs else a :: mergeEqual xs
    | [] => [a]) = _
  split <;> simp_all

theorem mem_mergeEqual {x : Int64} : ∀ {xs : List Int64}, x ∈ mergeEqual xs ↔ x ∈ xs
  | [] => by simp [mergeEqual]
  | a :: xs => by
    have ih : x ∈ mergeEqual xs ↔ x ∈ xs := mem_mergeEqual
    rw [mergeEqual_cons, List.mem_cons, ← ih]
    cases mergeEqual xs with
    | nil => simp
    | cons b rest =>
      simp only
      split_ifs with hab
      · subst hab; simp
      · simp

/-- Merging equal neighbours of a sorted list leaves no two equal elements. -/
theorem mergeEqual_pairwise : ∀ {xs : List Int64}, xs.Pairwise (· ≤ ·) →
    (mergeEqual xs).Pairwise (· < ·)
  | [], _ => by simp [mergeEqual]
  | a :: xs, h => by
    obtain ⟨ha, hxs⟩ := List.pairwise_cons.mp h
    have ih := mergeEqual_pairwise hxs
    have hle : ∀ x ∈ mergeEqual xs, a ≤ x := fun x hx => ha x (mem_mergeEqual.mp hx)
    rw [mergeEqual_cons]
    cases hm : mergeEqual xs with
    | nil => simp
    | cons b rest =>
      rw [hm] at ih hle
      simp only
      split_ifs with hab
      · exact ih
      · -- `a` is below the head, and the head is below the rest
        have hlt : a < b := Int64.lt_of_le_of_ne (hle b List.mem_cons_self) hab
        refine List.pairwise_cons.mpr ⟨fun x hx => ?_, ih⟩
        rcases List.mem_cons.mp hx with rfl | hx
        · exact hlt
        · exact Int64.lt_trans hlt ((List.pairwise_cons.mp ih).1 x hx)

theorem landmarks_pairwise (offsets : List Int64) : (landmarks offsets).Pairwise (· < ·) := by
  unfold landmarks
  apply mergeEqual_pairwise
  have hsort : ((0 :: offsets).mergeSort fun a b => a ≤ b).Pairwise
      fun a b => decide (a ≤ b) = true := by
    refine List.pairwise_mergeSort (fun a b c hab hbc => ?_) (fun a b => ?_) _
    · simp only [decide_eq_true_eq] at hab hbc ⊢
      exact Int64.le_trans hab hbc
    · rcases Int64.le_total a b with h | h <;> simp [h]
  exact hsort.imp fun h => by simpa using h

theorem landmarks_nodup (offsets : List Int64) : (landmarks offsets).Nodup :=
  (landmarks_pairwise offsets).imp fun h => Int64.ne_of_lt h

/-! ### The set of known offsets -/

/-- The offsets of a stream as whole numbers, the anchor 0 among them. -/
def known (offsets : List Int64) : Finset ℤ := insert 0 (offsets.map Int64.toInt).toFinset

theorem zero_mem_known (offsets : List Int64) : (0 : ℤ) ∈ known offsets := by simp [known]

theorem known_nonempty (offsets : List Int64) : (known offsets).Nonempty :=
  ⟨0, zero_mem_known offsets⟩

theorem toInt_mem_known {offsets : List Int64} {o : Int64} :
    o.toInt ∈ known offsets ↔ o = 0 ∨ o ∈ offsets := by
  have hzero : o.toInt = 0 ↔ o = 0 := by rw [← Int64.toInt_inj]; simp
  simp [known, hzero, Int64.toInt_inj]

theorem known_congr {xs ys : List Int64} (h : ∀ o, o ∈ xs ↔ o ∈ ys) : known xs = known ys := by
  ext z
  simp only [known, Finset.mem_insert, List.mem_toFinset, List.mem_map, h]

/-- The landmarks are the known offsets. -/
theorem mem_landmarks {offsets : List Int64} {o : Int64} :
    o ∈ landmarks offsets ↔ o.toInt ∈ known offsets := by
  rw [toInt_mem_known, landmarks, mem_mergeEqual, List.mem_mergeSort, List.mem_cons]

theorem exists_landmark {offsets : List Int64} {z : ℤ} (h : z ∈ known offsets) :
    ∃ o : Int64, o ∈ landmarks offsets ∧ o.toInt = z := by
  rcases Finset.mem_insert.mp h with rfl | hz
  · exact ⟨0, mem_landmarks.mpr (zero_mem_known offsets), rfl⟩
  · obtain ⟨o, ho, rfl⟩ := List.mem_map.mp (List.mem_toFinset.mp hz)
    exact ⟨o, mem_landmarks.mpr (toInt_mem_known.mpr (Or.inr ho)), rfl⟩

/-- Every known offset is a signed 64-bit number. -/
theorem bounds_of_mem_known {offsets : List Int64} {z : ℤ} (h : z ∈ known offsets) :
    -2 ^ 63 ≤ z ∧ z < 2 ^ 63 := by
  obtain ⟨o, -, rfl⟩ := exists_landmark h
  exact ⟨o.le_toInt, o.toInt_lt⟩

/-- Streams with the same known offsets have the same landmarks: two strictly
increasing lists with the same elements are equal. -/
theorem landmarks_congr {xs ys : List Int64} (h : known xs = known ys) :
    landmarks xs = landmarks ys := by
  refine List.Perm.eq_of_pairwise (fun a b _ _ hab hba => ?_) (landmarks_pairwise xs)
    (landmarks_pairwise ys) ((List.perm_ext_iff_of_nodup (landmarks_nodup xs)
      (landmarks_nodup ys)).mpr fun o => ?_)
  · exact absurd (Int64.lt_trans hab hba) Int64.lt_irrefl
  · rw [mem_landmarks, mem_landmarks, h]

theorem length_landmarks (offsets : List Int64) :
    (landmarks offsets).length = (known offsets).card := by
  have hset : ((landmarks offsets).map Int64.toInt).toFinset = known offsets := by
    ext z
    rw [List.mem_toFinset, List.mem_map]
    constructor
    · rintro ⟨o, ho, rfl⟩
      exact mem_landmarks.mp ho
    · exact exists_landmark
  have hnodup : ((landmarks offsets).map Int64.toInt).Nodup :=
    (landmarks_nodup offsets).map fun a b hab => Int64.toInt_inj.mp hab
  rw [← hset, List.toFinset_card_of_nodup hnodup, List.length_map]

/-! ### Neighbours -/

/-- `a` is in the set, and `b` is the least of its elements above `a`. -/
def NextIn (S : Finset ℤ) (a b : ℤ) : Prop := a ∈ S ∧ IsLeast {x | x ∈ S ∧ a < x} b

theorem NextIn.lt {S : Finset ℤ} {a b : ℤ} (h : NextIn S a b) : a < b := h.2.1.2

theorem NextIn.left_mem {S : Finset ℤ} {a b : ℤ} (h : NextIn S a b) : a ∈ S := h.1

theorem NextIn.right_mem {S : Finset ℤ} {a b : ℤ} (h : NextIn S a b) : b ∈ S := h.2.1.1

theorem NextIn.least {S : Finset ℤ} {a b c : ℤ} (h : NextIn S a b) (hc : c ∈ S) (hac : a < c) :
    b ≤ c := h.2.2 ⟨hc, hac⟩

/-- Every element but the largest has a next one. -/
theorem exists_nextIn {S : Finset ℤ} {a c : ℤ} (ha : a ∈ S) (hc : c ∈ S) (hac : a < c) :
    ∃ b, NextIn S a b := by
  have hne : (S.filter (a < ·)).Nonempty := ⟨c, Finset.mem_filter.mpr ⟨hc, hac⟩⟩
  refine ⟨(S.filter (a < ·)).min' hne, ha, ?_, fun x hx => ?_⟩
  · exact Finset.mem_filter.mp (Finset.min'_mem _ hne)
  · exact Finset.min'_le _ _ (Finset.mem_filter.mpr hx)

/-- Every element but the smallest is the next one of another. -/
theorem exists_nextIn_of_lt {S : Finset ℤ} {b c : ℤ} (hb : b ∈ S) (hc : c ∈ S) (hcb : c < b) :
    ∃ a, NextIn S a b := by
  have hne : (S.filter (· < b)).Nonempty := ⟨c, Finset.mem_filter.mpr ⟨hc, hcb⟩⟩
  obtain ⟨hS, hlt⟩ := Finset.mem_filter.mp (Finset.max'_mem _ hne)
  refine ⟨(S.filter (· < b)).max' hne, hS, ⟨hb, hlt⟩, fun x ⟨hx, hax⟩ => ?_⟩
  by_contra hbx
  have hxb : x < b := not_le.mp hbx
  have hle := Finset.le_max' (S.filter (· < b)) x (Finset.mem_filter.mpr ⟨hx, hxb⟩)
  omega

theorem adjacent_cons_cons (x y : Int64) (rest : List Int64) :
    adjacent (x :: y :: rest) = (x, y) :: adjacent (y :: rest) := rfl

/-- In a strictly increasing list, the neighbour of an element is the least
element above it. -/
theorem mem_adjacent {a b : Int64} : ∀ {xs : List Int64}, xs.Pairwise (· < ·) →
    ((a, b) ∈ adjacent xs ↔ a ∈ xs ∧ b ∈ xs ∧ a < b ∧ ∀ c ∈ xs, a < c → b ≤ c)
  | [], _ => by simp [adjacent]
  | [x], _ => by
    simp only [adjacent, List.tail_cons, List.zip_nil_right, List.not_mem_nil, List.mem_singleton,
      false_iff]
    rintro ⟨rfl, rfl, h, -⟩
    exact Int64.lt_irrefl h
  | x :: y :: rest, h => by
    obtain ⟨hx, hrest⟩ := List.pairwise_cons.mp h
    have hy := (List.pairwise_cons.mp hrest).1
    have ih := mem_adjacent (a := a) (b := b) hrest
    rw [adjacent_cons_cons, List.mem_cons, ih, Prod.mk.injEq]
    constructor
    · rintro (⟨rfl, rfl⟩ | ⟨ha, hb, hab, hmin⟩)
      · refine ⟨List.mem_cons_self, List.mem_cons_of_mem _ List.mem_cons_self,
          hx _ List.mem_cons_self, fun c hc hac => ?_⟩
        rcases List.mem_cons.mp hc with rfl | hc
        · exact absurd hac Int64.lt_irrefl
        · rcases List.mem_cons.mp hc with rfl | hc
          · exact Int64.le_refl _
          · exact Int64.le_of_lt (hy c hc)
      · refine ⟨List.mem_cons_of_mem _ ha, List.mem_cons_of_mem _ hb, hab, fun c hc hac => ?_⟩
        rcases List.mem_cons.mp hc with rfl | hc
        · exact absurd (Int64.lt_trans hac (hx a ha)) Int64.lt_irrefl
        · exact hmin c hc hac
    · rintro ⟨ha, hb, hab, hmin⟩
      rcases List.mem_cons.mp ha with rfl | ha'
      · -- the least element above the head is the second one
        left
        refine ⟨rfl, ?_⟩
        have hby := hmin y (List.mem_cons_of_mem _ List.mem_cons_self) (hx y List.mem_cons_self)
        rcases List.mem_cons.mp hb with rfl | hb
        · exact absurd hab Int64.lt_irrefl
        · rcases List.mem_cons.mp hb with rfl | hb
          · rfl
          · exact Int64.le_antisymm hby (Int64.le_of_lt (hy b hb))
      · right
        refine ⟨ha', ?_, hab, fun c hc => hmin c (List.mem_cons_of_mem _ hc)⟩
        rcases List.mem_cons.mp hb with rfl | hb'
        · exact absurd (Int64.lt_trans hab (hx a ha')) Int64.lt_irrefl
        · exact hb'

/-- The neighbours among the landmarks are the neighbours in the set. -/
theorem mem_adjacent_landmarks {offsets : List Int64} {a b : Int64} :
    (a, b) ∈ adjacent (landmarks offsets) ↔ NextIn (known offsets) a.toInt b.toInt := by
  rw [mem_adjacent (landmarks_pairwise offsets), mem_landmarks, mem_landmarks,
    Int64.lt_iff_toInt_lt]
  constructor
  · rintro ⟨ha, hb, hab, hmin⟩
    refine ⟨ha, ⟨hb, hab⟩, fun z ⟨hz, haz⟩ => ?_⟩
    obtain ⟨c, hc, rfl⟩ := exists_landmark hz
    exact Int64.le_iff_toInt_le.mp (hmin c hc (Int64.lt_iff_toInt_lt.mpr haz))
  · intro h
    refine ⟨h.left_mem, h.right_mem, h.lt, fun c hc hac => ?_⟩
    exact Int64.le_iff_toInt_le.mpr (h.least (mem_landmarks.mp hc) (Int64.lt_iff_toInt_lt.mp hac))

theorem length_adjacent (xs : List Int64) : (adjacent xs).length = xs.length - 1 := by
  simp [adjacent]

theorem map_fst_adjacent : ∀ xs : List Int64, (adjacent xs).map Prod.fst = xs.dropLast
  | [] => rfl
  | [_] => rfl
  | x :: y :: rest => by
    rw [adjacent_cons_cons, List.map_cons, map_fst_adjacent (y :: rest), List.dropLast_cons_cons]

/-! ### Wrapped gaps -/

/-- The wrapped difference of neighbours is negative exactly when the true
one does not fit. -/
theorem gap_neg_iff {a b : Int64} (h : a.toInt < b.toInt) :
    b - a < 0 ↔ 2 ^ 63 - 1 < b.toInt - a.toInt := by
  have ha := a.le_toInt
  have hb := b.toInt_lt
  rw [Int64.lt_iff_toInt_lt, Int64.toInt_sub, Int.bmod]
  simp only [Int64.toInt_zero]
  omega

/-- A difference that is not negative is the true one. -/
theorem toInt_gap {a b : Int64} (h : a.toInt < b.toInt) (hfit : ¬ b - a < 0) :
    (b - a).toInt = b.toInt - a.toInt := by
  rw [gap_neg_iff h] at hfit
  rw [Int64.toInt_sub]
  exact Int.bmod_eq_of_le (by omega) (by omega)

end OffsetGaps
