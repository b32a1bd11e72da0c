/-
# Sorting by a comparison that goes in a circle

Let three elements stand in a circle: the first is less than the second, the
second less than the third, and the third less than the first. Then a sorted
list depends on how it was listed before. Of up to twelve elements, those that
come first are inserted first, and nothing that is inserted later changes the
order in which they stand. Of fewer than fifty, the three can be put where the
samples are taken: then the second one is the pivot, and unless the list stays
as it is, the first one goes to its left and the third one to its right. A
longer list in which only one element is out of place is not split at all. If
that element is first in the list, it moves up to the first that is not less;
if it is last, it moves down to the last that it is not less than. In a circle
these are different places.

Key theorems: `Sorting.exists_sublist_sort`, `Sorting.sort_cons`,
`Sorting.sort_append_singleton`, `Sorting.exists_sort_of_circle`.
-/
import Mathlib.Data.List.Chain
import Mathlib.Data.List.TakeWhile
import OffsetGaps.Proofs.Sorting

namespace OffsetGaps.Sorting

variable {α : Type} {less : α → α → Bool} {xs run rest : List α} {x y z : α}

/-! ### Few elements -/

theorem sublist_insertPast (passes : α → Bool) (x : α) (xs : List α) :
    xs.Sublist (insertPast passes x xs) := by
  conv => lhs; rw [← List.takeWhile_append_dropWhile (p := passes) (l := xs)]
  exact List.Sublist.append (.refl _) (List.sublist_cons_self _ _)

theorem sublist_foldl_insertPast (less : α → α → Bool) (xs run : List α) :
    run.Sublist (xs.foldl (fun sorted x => insertPast (less x) x sorted) run) := by
  induction xs generalizing run with
  | nil => exact .refl run
  | cons x xs ih => exact (sublist_insertPast _ x run).trans (ih _)

/-- Elements in order that are inserted first stay in their order. -/
theorem sublist_insertionSort_front (hxy : less y x = false) (hyz : less z y = false)
    (rest : List α) : [x, y, z].Sublist (insertionSort less (x :: y :: z :: rest)) := by
  have hfront : [x, y, z].foldl (fun sorted x => insertPast (less x) x sorted) [] = [z, y, x] := by
    simp [insertPast, hxy, hyz]
  have hsub := sublist_foldl_insertPast less rest [z, y, x]
  rw [insertionSort, ← List.reverse_sublist, List.reverse_reverse]
  change [z, y, x].Sublist (([x, y, z] ++ rest).foldl _ [])
  rwa [List.foldl_append, hfront]

/-! ### Samples -/

theorem median_of_ordered {i j k : Nat} (hij : lessAt less xs j i = false)
    (hjk : lessAt less xs k j = false) (swaps : Nat) :
    median less xs i j k swaps = (j, swaps) := by
  simp [median, orderPair, hij, hjk]

theorem choosePivot_of_short (hlow : 8 ≤ xs.length) (hhigh : xs.length < 50)
    (hfirst : lessAt less xs (xs.length / 4 * 2) (xs.length / 4) = false)
    (hsecond : lessAt less xs (xs.length / 4 * 3) (xs.length / 4 * 2) = false) :
    choosePivot less xs = (xs.length / 4 * 2, .increasing) := by
  simp [choosePivot, Nat.not_lt.mpr hlow, hhigh, median_of_ordered hfirst hsecond]

/-- No sample is taken at either end of the list. -/
theorem choosePivot_of_interior (hlen : 50 ≤ xs.length)
    (hinterior : ∀ i j, 0 < i → i < j → j + 1 < xs.length → lessAt less xs j i = false) :
    choosePivot less xs = (xs.length / 4 * 2, .increasing) := by
  have hmedian : ∀ i, 1 < i → i + 2 < xs.length → ∀ swaps,
      medianAdjacent less xs i swaps = (i, swaps) := fun i hi hlt =>
    median_of_ordered (hinterior _ _ (by omega) (by omega) (by omega))
      (hinterior _ _ (by omega) (by omega) (by omega))
  have hsamples : median less xs (xs.length / 4) (xs.length / 4 * 2) (xs.length / 4 * 3) 0 =
      (xs.length / 4 * 2, 0) :=
    median_of_ordered (hinterior _ _ (by omega) (by omega) (by omega))
      (hinterior _ _ (by omega) (by omega) (by omega)) 0
  have hlong : ¬ xs.length < 8 ∧ ¬ xs.length < 50 := ⟨by omega, by omega⟩
  simp [choosePivot, hlong, hmedian (xs.length / 4) (by omega) (by omega),
    hmedian (xs.length / 4 * 2) (by omega) (by omega),
    hmedian (xs.length / 4 * 3) (by omega) (by omega), hsamples]

/-! ### One round -/

theorem bitLength_ne_zero {n : Nat} (h : n ≠ 0) : bitLength n ≠ 0 := by
  simp [bitLength, h]

theorem sort_of_sorted {ys : List α} (hlen : 12 < xs.length)
    (hround : round less none true true xs = .sorted ys) : sort less xs = ys := by
  rw [sort, sortRange, if_neg (by omega), if_neg (bitLength_ne_zero (by omega))]
  simp only [↓reduceIte]
  split
  case h_1 zs h =>
    rw [hround] at h
    exact (Round.sorted.inj h).symm
  case h_2 h => simp [hround] at h
  case h_3 h => simp [hround] at h

/-- What is less than the pivot comes before it, and everything else behind. -/
theorem exists_sort_of_split {left right : List α} {pivot : α} {already : Bool}
    (hlen : 12 < xs.length)
    (hround : round less none true true xs = .split left pivot right already) :
    ∃ before behind : List α, sort less xs = before ++ pivot :: behind ∧
      (∀ x ∈ xs, x ≠ pivot → less x pivot = true → x ∈ before) ∧
      ∀ x ∈ xs, x ≠ pivot → less x pivot = false → x ∈ behind := by
  obtain ⟨hleft, hright, -⟩ := round_split hround
  have hmem : ∀ x ∈ xs, x ≠ pivot → x ∈ left ∨ x ∈ right := by
    intro x hx hne
    have hx' := (perm_of_round hround).mem_iff.mpr hx
    simpa [Round.elements, hne] using hx'
  rw [sort, sortRange, if_neg (by omega), if_neg (bitLength_ne_zero (by omega))]
  simp only [↓reduceIte]
  split
  case h_1 h => simp [hround] at h
  case h_2 h => simp [hround] at h
  case h_3 left' pivot' right' already' h =>
    rw [hround] at h
    cases h
    refine ⟨_, _, rfl, fun x hx hne hless => ?_, fun x hx hne hless => ?_⟩
    · rw [(sortRange_perm ..).mem_iff]
      refine (hmem x hx hne).resolve_right fun hx' => ?_
      simp [hright x hx'] at hless
    · rw [(sortRange_perm ..).mem_iff]
      refine (hmem x hx hne).resolve_left fun hx' => ?_
      simp [hleft x hx'] at hless

/-- A list that can be settled is not split. -/
theorem sort_eq_of_settled {ys : List α} {pivot : Nat} (hlen : 12 < xs.length)
    (hpivot : choosePivot less xs = (pivot, .increasing))
    (hsettled : partialInsertionSort less xs = (ys, true)) : sort less xs = ys := by
  apply sort_of_sorted hlen
  simp [round, prepare, hpivot, hsettled]

/-! ### Fewer than fifty elements -/

theorem settle_short (k : Nat) (run rest : List α) :
    (settle less false (k + 1) run rest).1 = run.reverse ++ rest := by
  have happend := climb_append less run rest
  unfold settle
  split
  case h_1 hclimb =>
    rw [hclimb] at happend
    simpa using happend
  case h_2 hclimb =>
    rw [hclimb] at happend
    exact happend

/-- The elements of a short list are not moved before it is split. -/
theorem partialInsertionSort_of_short (hlen : xs.length < 50) :
    (partialInsertionSort less xs).1 = xs := by
  rw [partialInsertionSort, decide_eq_false (by omega)]
  exact settle_short 4 [] xs

/-- If the samples of a short list are in order and differ, they are so when it
is sorted. -/
theorem sublist_sort_of_samples (hlow : 12 < xs.length) (hhigh : xs.length < 50)
    (hx : xs[xs.length / 4]? = some x) (hy : xs[xs.length / 4 * 2]? = some y)
    (hz : xs[xs.length / 4 * 3]? = some z) (hsub : [x, y, z].Sublist xs) (hne : x ≠ y)
    (hne' : z ≠ y) (hxy : less x y = true) (hyx : less y x = false) (hzy : less z y = false) :
    [x, y, z].Sublist (sort less xs) := by
  have hpivot : choosePivot less xs = (xs.length / 4 * 2, .increasing) := by
    refine choosePivot_of_short (by omega) hhigh ?_ ?_
    · simpa [lessAt, hx, hy] using hyx
    · simpa [lessAt, hy, hz] using hzy
  have hsame : (partialInsertionSort less xs).1 = xs := partialInsertionSort_of_short hhigh
  cases hsettled : (partialInsertionSort less xs).2 with
  | true =>
    rwa [sort_eq_of_settled hlow hpivot (Prod.ext hsame hsettled)]
  | false =>
    have hprepare : prepare less true true xs = (swap xs 0 (xs.length / 4 * 2), false) := by
      have hkept : partialInsertionSort less xs = (xs, false) := Prod.ext hsame hsettled
      simp [prepare, hpivot, hkept]
    obtain ⟨others, hothers⟩ : ∃ others, swap xs 0 (xs.length / 4 * 2) = y :: others := by
      rw [← List.head?_eq_some_iff, List.head?_eq_getElem?,
        getElem?_swap (by omega) (by omega), if_neg (by omega), if_pos rfl, hy]
    rw [hothers] at hprepare
    have hround : ∃ left right already,
        round less none true true xs = .split left y right already := by
      simp [round, hprepare]
    obtain ⟨left, right, already, hround⟩ := hround
    obtain ⟨before, behind, hsort, hbefore, hbehind⟩ := exists_sort_of_split hlow hround
    have hxmem : [x].Sublist before :=
      List.singleton_sublist.mpr (hbefore x (List.mem_of_getElem? hx) hne hxy)
    have hzmem : [z].Sublist behind :=
      List.singleton_sublist.mpr (hbehind z (List.mem_of_getElem? hz) hne' hzy)
    rw [hsort]
    exact hxmem.append (hzmem.cons_cons y)

theorem getElem?_behind {front back : List α} {k : Nat} (h : front.length = k) :
    (front ++ x :: back)[k]? = some x := by
  rw [← h, List.getElem?_append_right (Nat.le_refl _), Nat.sub_self]
  rfl

/-- Three elements can be put at places with equal distances. -/
theorem exists_perm_of_places (x y z : α) (rest : List α) {a : Nat} (ha : 0 < a)
    (hlen : a * 3 ≤ rest.length + 2) :
    ∃ ys : List α, ys.Perm (x :: y :: z :: rest) ∧ [x, y, z].Sublist ys ∧
      ys[a]? = some x ∧ ys[a * 2]? = some y ∧ ys[a * 3]? = some z := by
  obtain ⟨r₁, tail₁, rfl, h₁⟩ : ∃ r t, rest = r ++ t ∧ r.length = a :=
    ⟨rest.take a, rest.drop a, (List.take_append_drop a rest).symm, by simp; omega⟩
  obtain ⟨r₂, tail₂, rfl, h₂⟩ : ∃ r t, tail₁ = r ++ t ∧ r.length = a - 1 :=
    ⟨tail₁.take (a - 1), tail₁.drop (a - 1), (List.take_append_drop _ _).symm, by simp at *; omega⟩
  obtain ⟨r₃, r₄, rfl, h₃⟩ : ∃ r t, tail₂ = r ++ t ∧ r.length = a - 1 :=
    ⟨tail₂.take (a - 1), tail₂.drop (a - 1), (List.take_append_drop _ _).symm, by simp at *; omega⟩
  have hsecond : r₁ ++ x :: (r₂ ++ y :: (r₃ ++ z :: r₄)) =
      (r₁ ++ x :: r₂) ++ y :: (r₃ ++ z :: r₄) := by simp
  have hthird : r₁ ++ x :: (r₂ ++ y :: (r₃ ++ z :: r₄)) =
      (r₁ ++ x :: (r₂ ++ y :: r₃)) ++ z :: r₄ := by simp
  refine ⟨r₁ ++ x :: (r₂ ++ y :: (r₃ ++ z :: r₄)), ?_, ?_, ?_, ?_, ?_⟩
  · calc (r₁ ++ x :: (r₂ ++ y :: (r₃ ++ z :: r₄))).Perm
          (x :: (r₁ ++ (r₂ ++ y :: (r₃ ++ z :: r₄)))) := List.perm_middle
      _ |>.Perm (x :: y :: (r₁ ++ (r₂ ++ (r₃ ++ z :: r₄)))) :=
        .cons x ((List.perm_middle.append_left r₁).trans List.perm_middle)
      _ |>.Perm (x :: y :: z :: (r₁ ++ (r₂ ++ (r₃ ++ r₄)))) := by
        have hlast : (r₁ ++ r₂ ++ r₃ ++ z :: r₄).Perm (z :: (r₁ ++ r₂ ++ r₃ ++ r₄)) :=
          List.perm_middle
        exact .cons x (.cons y (by simpa using hlast))
  · refine .trans (.cons_cons x ?_) (List.sublist_append_right r₁ _)
    refine .trans (.cons_cons y ?_) (List.sublist_append_right r₂ _)
    exact .trans (.cons_cons z (List.nil_sublist r₄)) (List.sublist_append_right r₃ _)
  · exact getElem?_behind h₁
  · rw [hsecond]
    exact getElem?_behind (by simp; omega)
  · rw [hthird]
    exact getElem?_behind (by simp; omega)

/-- **Of fewer than fifty elements**, three that are in order can be listed
such that they stay so. -/
theorem exists_sublist_sort (hlen : rest.length + 3 < 50) (hne : x ≠ y) (hne' : z ≠ y)
    (hxy : less x y = true) (hyx : less y x = false) (hzy : less z y = false) :
    ∃ ys : List α, ys.Perm (x :: y :: z :: rest) ∧ [x, y, z].Sublist (sort less ys) := by
  by_cases hfew : rest.length + 3 ≤ 12
  · refine ⟨_, .refl _, ?_⟩
    rw [sort_of_few (by exact hfew)]
    exact sublist_insertionSort_front hyx hzy rest
  · obtain ⟨ys, hperm, hsub, hx, hy, hz⟩ :=
      exists_perm_of_places x y z rest (a := (rest.length + 3) / 4) (by omega) (by omega)
    have hlength : ys.length = rest.length + 3 := by simpa using hperm.length_eq
    rw [← hlength] at hx hy hz
    exact ⟨ys, hperm, sublist_sort_of_samples (by omega) (by omega) hx hy hz hsub hne hne' hxy hyx hzy⟩

/-! ### Fifty elements or more -/

theorem climb_of_isChain (run : List α) {front : List α} (rest : List α)
    (h : (run.reverse ++ front).IsChain fun x y => less y x = false) :
    climb less run (front ++ rest) = climb less (front.reverse ++ run) rest := by
  induction front generalizing run with
  | nil => rfl
  | cons x front ih =>
    have hhead : run.head?.any (less x) = false := by
      have hlast := (List.isChain_append.mp h).2.2
      cases run with
      | nil => rfl
      | cons y run => simpa using hlast y (by simp) x rfl
    rw [List.cons_append, climb, hhead, if_neg (by decide), ih _ (by simpa using h)]
    simp

theorem settle_of_isChain {long : Bool} {k : Nat}
    (h : (run.reverse ++ rest).IsChain fun x y => less y x = false) :
    settle less long (k + 1) run rest = (run.reverse ++ rest, true) := by
  have hclimb : climb less run rest = (rest.reverse ++ run, []) := by
    have hall := climb_of_isChain run [] h
    rwa [List.append_nil] at hall
  rw [settle, hclimb]
  simp

theorem insertPast_cons_of_pos {passes : α → Bool} (h : passes y = true) :
    insertPast passes x (y :: xs) = y :: insertPast passes x xs := by
  simp [insertPast, h]

theorem insertPast_cons_of_neg {passes : α → Bool} (h : passes y = false) :
    insertPast passes x (y :: xs) = x :: y :: xs := by
  simp [insertPast, h]

/-- An element is inserted between one that it passes and one that it does
not. -/
theorem isChain_insertPast {R : α → α → Prop} {passes : α → Bool} (hxs : xs.IsChain R)
    (hpass : ∀ y ∈ xs, passes y = true → R y x) (hstop : ∀ y ∈ xs, passes y = false → R x y) :
    (insertPast passes x xs).IsChain R := by
  induction xs with
  | nil => exact List.isChain_singleton x
  | cons y xs ih =>
    obtain ⟨hpassy, hpass⟩ := List.forall_mem_cons.mp hpass
    obtain ⟨hstopy, hstop⟩ := List.forall_mem_cons.mp hstop
    cases hy : passes y with
    | false =>
      rw [insertPast_cons_of_neg hy]
      exact hxs.cons_cons (hstopy hy)
    | true =>
      rw [insertPast_cons_of_pos hy]
      refine (ih hxs.tail hpass hstop).cons fun z hz => ?_
      cases xs with
      | nil =>
        obtain rfl : x = z := by simpa [insertPast] using hz
        exact hpassy hy
      | cons w xs =>
        cases hw : passes w with
        | false =>
          rw [insertPast_cons_of_neg hw] at hz
          obtain rfl : x = z := by simpa using hz
          exact hpassy hy
        | true =>
          rw [insertPast_cons_of_pos hw] at hz
          obtain rfl : w = z := by simpa using hz
          exact (List.isChain_cons_cons.mp hxs).1

/-- An element in front of a list in order moves up past all that are less. -/
theorem partialInsertionSort_cons (hlen : 50 ≤ rest.length + 1)
    (hrest : rest.Pairwise fun x y => less y x = false)
    (hasymm : ∀ y ∈ rest, less y x = true → less x y = false) :
    partialInsertionSort less (x :: rest) = (insertPast (less · x) x rest, true) := by
  have hchain : (insertPast (less · x) x rest).IsChain fun x y => less y x = false :=
    isChain_insertPast hrest.isChain hasymm fun y _ hy => hy
  rw [partialInsertionSort, decide_eq_true (by exact hlen)]
  cases rest with
  | nil => exact settle_of_isChain hchain
  | cons y rest =>
    cases hy : less y x with
    | false =>
      have hstays : insertPast (less · x) x (y :: rest) = x :: y :: rest :=
        insertPast_cons_of_neg hy
      rw [hstays] at hchain ⊢
      exact settle_of_isChain hchain
    | true =>
      have hpasses : insertPast (less · x) x (y :: rest) = y :: insertPast (less · x) x rest :=
        insertPast_cons_of_pos hy
      rw [hpasses] at hchain ⊢
      have hclimb : climb less [] (x :: y :: rest) = ([x], y :: rest) := by
        simp [climb, hy]
      rw [settle, hclimb]
      exact settle_of_isChain hchain

/-- An element behind a list in order moves down past all that it is less
than. -/
theorem partialInsertionSort_append_singleton (hlen : 50 ≤ rest.length + 1)
    (hrest : rest.Pairwise fun x y => less y x = false)
    (hasymm : ∀ y ∈ rest, less x y = true → less y x = false) :
    partialInsertionSort less (rest ++ [x]) = ((insertPast (less x) x rest.reverse).reverse, true) := by
  have hchain : (insertPast (less x) x rest.reverse).reverse.IsChain fun x y => less y x = false := by
    rw [List.isChain_reverse]
    refine isChain_insertPast ?_ (by simpa using hasymm) fun y _ hy => hy
    rw [List.isChain_reverse]
    exact hrest.isChain
  rw [partialInsertionSort, decide_eq_true (by simpa using hlen)]
  have hclimb : climb less [] (rest ++ [x]) = climb less rest.reverse [x] := by
    have hall := climb_of_isChain [] [x] hrest.isChain
    rwa [List.append_nil] at hall
  obtain ⟨run, rfl⟩ : ∃ run, rest = run.reverse := ⟨rest.reverse, rest.reverse_reverse.symm⟩
  rw [List.reverse_reverse] at *
  cases hhead : run.head?.any (less x) with
  | false =>
    have hstays : insertPast (less x) x run = x :: run := by
      cases run with
      | nil => rfl
      | cons y run => exact insertPast_cons_of_neg (by simpa using hhead)
    rw [hstays, List.reverse_cons] at hchain ⊢
    exact settle_of_isChain hchain
  | true =>
    cases run with
    | nil => cases hhead
    | cons y run =>
      have hpasses : insertPast (less x) x (y :: run) = y :: insertPast (less x) x run :=
        insertPast_cons_of_pos (by simpa using hhead)
      rw [hpasses, List.reverse_cons] at hchain
      rw [hpasses, settle, hclimb, climb, if_pos hhead, List.reverse_cons]
      exact settle_of_isChain hchain

theorem lessAt_of_pairwise (h : xs.Pairwise fun x y => less y x = false) {i j : Nat}
    (hij : i < j) : lessAt less xs j i = false := by
  rw [lessAt_eq_false_iff]
  intro y x hy hx
  obtain ⟨hj, rfl⟩ := List.getElem?_eq_some_iff.mp hy
  obtain ⟨hi, rfl⟩ := List.getElem?_eq_some_iff.mp hx
  exact List.pairwise_iff_getElem.mp h i j hi hj hij

/-- **Of fifty elements or more**, one in front of the others, which are in
order, moves up to the first that is not less. -/
theorem sort_cons (hlen : 50 ≤ rest.length + 1)
    (hrest : rest.Pairwise fun x y => less y x = false)
    (hasymm : ∀ y ∈ rest, less y x = true → less x y = false) :
    sort less (x :: rest) = insertPast (less · x) x rest := by
  refine sort_eq_of_settled (by simp; omega) (choosePivot_of_interior (by simpa using hlen) ?_)
    (partialInsertionSort_cons hlen hrest hasymm)
  intro i j hi hij _
  cases i with
  | zero => omega
  | succ i =>
    cases j with
    | zero => omega
    | succ j => exact lessAt_of_pairwise hrest (Nat.lt_of_succ_lt_succ hij)

/-- One behind the others moves down to the last that it is not less than. -/
theorem sort_append_singleton (hlen : 50 ≤ rest.length + 1)
    (hrest : rest.Pairwise fun x y => less y x = false)
    (hasymm : ∀ y ∈ rest, less x y = true → less y x = false) :
    sort less (rest ++ [x]) = (insertPast (less x) x rest.reverse).reverse := by
  refine sort_eq_of_settled (by simp; omega) (choosePivot_of_interior (by simpa using hlen) ?_)
    (partialInsertionSort_append_singleton hlen hrest hasymm)
  intro i j _ hij hj
  rw [List.length_append, List.length_singleton] at hj
  have hleft : lessAt less (rest ++ [x]) j i = lessAt less rest j i := by
    simp only [lessAt, List.getElem?_append_left (show i < rest.length by omega),
      List.getElem?_append_left (show j < rest.length by omega)]
  rw [hleft]
  exact lessAt_of_pairwise hrest hij

/-! ### Circles -/

theorem sublist_insertPast_of_neg {passes : α → Bool} (hy : y ∈ xs) (hstop : passes y = false) :
    [x, y].Sublist (insertPast passes x xs) := by
  have hmem : y ∈ xs.dropWhile passes := by
    rw [← List.takeWhile_append_dropWhile (p := passes) (l := xs)] at hy
    refine (List.mem_append.mp hy).resolve_left fun htake => ?_
    simp [List.mem_takeWhile_imp htake] at hstop
  refine .trans (.cons_cons x ?_) (List.sublist_append_right _ _)
  exact List.singleton_sublist.mpr hmem

/-- What stands behind one that is not passed is not passed either. -/
theorem sublist_insertPast_of_sublist {passes : α → Bool} (hsub : [y, z].Sublist xs)
    (hstop : passes y = false) : [x, z].Sublist (insertPast passes x xs) := by
  rw [← List.takeWhile_append_dropWhile (p := passes) (l := xs)] at hsub
  obtain ⟨front, back, happend, hfront, hback⟩ := List.sublist_append_iff.mp hsub
  have hmem : z ∈ xs.dropWhile passes := by
    cases front with
    | nil =>
      obtain rfl : [y, z] = back := happend
      exact hback.subset (by simp)
    | cons w front =>
      obtain rfl : y = w := (List.cons.inj happend).1
      simp [List.mem_takeWhile_imp (hfront.subset (List.mem_cons_self ..))] at hstop
  refine .trans (.cons_cons x ?_) (List.sublist_append_right _ _)
  exact List.singleton_sublist.mpr hmem

theorem sublist_of_pairwise (h : xs.Pairwise fun x y => less y x = false) (hx : x ∈ xs)
    (hy : y ∈ xs) (hne : x ≠ y) (hless : less x y = true) : [x, y].Sublist xs := by
  obtain ⟨front, back, rfl⟩ := List.append_of_mem hx
  rcases List.mem_append.mp hy with hfront | hback
  · simp [(List.pairwise_append.mp h).2.2 y hfront x (by simp)] at hless
  · have hmem : y ∈ back := (List.mem_cons.mp hback).resolve_left (Ne.symm hne)
    exact .trans (.cons_cons x (List.singleton_sublist.mpr hmem)) (List.sublist_append_right _ _)

/-- **A comparison that goes in a circle is seen in what it sorts**: the list
can be given such that the last of three elements in a circle comes before the
first, and such that it comes behind. -/
theorem exists_sort_of_circle {p q m : α} (horder : IsOrderOn less (· ∈ p :: q :: rest))
    (hasymm : ∀ x ∈ p :: q :: m :: rest, ∀ y ∈ p :: q :: m :: rest,
      less x y = true → less y x = false)
    (hpq : less p q = true) (hqm : less q m = true) (hmp : less m p = true) :
    (∃ ys : List α, ys.Perm (p :: q :: m :: rest) ∧ [m, p].Sublist (sort less ys)) ∧
      ∃ ys : List α, ys.Perm (p :: q :: m :: rest) ∧ [p, m].Sublist (sort less ys) := by
  have hqp : less q p = false := hasymm p (by simp) q (by simp) hpq
  have hmq : less m q = false := hasymm q (by simp) m (by simp) hqm
  have hpm : less p m = false := hasymm m (by simp) p (by simp) hmp
  have hne : ∀ {x y}, less x y = true → less y x = false → x ≠ y := by
    rintro x y htrue hfalse rfl
    rw [htrue] at hfalse
    cases hfalse
  by_cases hshort : rest.length + 3 < 50
  · obtain ⟨ys, hys, hsub⟩ :=
      exists_sublist_sort hshort (hne hqm hmq) (hne hmp hpm).symm hqm hmq hpm
    obtain ⟨zs, hzs, hsub'⟩ :=
      exists_sublist_sort hshort (hne hpq hqp) (hne hqm hmq).symm hpq hqp hmq
    have hturned : ([q, m] ++ p :: rest).Perm (p :: ([q, m] ++ rest)) := List.perm_middle
    exact ⟨⟨ys, hys.trans hturned, .trans (by simp) hsub⟩, zs, hzs, .trans (by simp) hsub'⟩
  · have hperm := sort_perm less (p :: q :: rest)
    have hsorted := sort_pairwise horder
    have hlen : 50 ≤ (sort less (p :: q :: rest)).length + 1 := by
      rw [hperm.length_eq]
      simp
      omega
    have hmem : ∀ x ∈ sort less (p :: q :: rest), x ∈ p :: q :: m :: rest := by
      intro x hx
      have := hperm.mem_iff.mp hx
      grind
    have hturned : ([p, q] ++ m :: rest).Perm (m :: ([p, q] ++ rest)) := List.perm_middle
    have hall : (m :: sort less (p :: q :: rest)).Perm (p :: q :: m :: rest) :=
      (hperm.cons m).trans hturned.symm
    refine ⟨⟨_, hall, ?_⟩, _, (List.perm_append_singleton m _).trans hall, ?_⟩
    · rw [sort_cons hlen hsorted fun x hx => hasymm x (hmem x hx) m (by simp)]
      exact sublist_insertPast_of_neg (hperm.mem_iff.mpr (by simp)) hpm
    · rw [sort_append_singleton hlen hsorted fun x hx => hasymm m (by simp) x (hmem x hx)]
      have hsub : [q, p].Sublist (sort less (p :: q :: rest)).reverse := by
        rw [← List.reverse_sublist, List.reverse_reverse]
        exact sublist_of_pairwise hsorted (hperm.mem_iff.mpr (by simp))
          (hperm.mem_iff.mpr (by simp)) (hne hpq hqp) hpq
      exact List.reverse_sublist.mpr (sublist_insertPast_of_sublist hsub hmq)

end OffsetGaps.Sorting
