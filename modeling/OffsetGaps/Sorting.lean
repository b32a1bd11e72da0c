/-
# Sorting by comparison

A pattern-defeating quicksort on lists. Twelve elements or fewer are sorted by
insertion. A longer range is split around a pivot that is chosen from samples.
If the samples were in order, a few elements out of place are moved first, and
if they were in reverse order, so is the range. After a split that was far off
the middle some elements are exchanged by a fixed rule, and after too many of
them the range is sorted by a heap.

The comparison is not assumed to be an order, and what is sorted by one that
is none depends on every step taken here. Ranges are lists of their own, with
the element in front of them. No element of a range is less than that one, so
a move to the front never leaves the range.

Key definitions: `Sorting.insertionSort`, `Sorting.heapSort`,
`Sorting.exchange`, `Sorting.choosePivot`, `Sorting.round`, `Sorting.sort`.
Key theorems: `Sorting.exchange_perm`, `Sorting.perm_of_round`.
-/

namespace OffsetGaps.Sorting

variable {α : Type} (less : α → α → Bool)

def lessAt (xs : List α) (i j : Nat) : Bool :=
  match xs[i]?, xs[j]? with
  | some x, some y => less x y
  | _, _ => false

def swap (xs : List α) (i j : Nat) : List α :=
  match xs[i]?, xs[j]? with
  | some x, some y => (xs.set i y).set j x
  | _, _ => xs

theorem swap_perm (xs : List α) (i j : Nat) : (swap xs i j).Perm xs := by
  unfold swap
  split
  case h_1 x y hx hy =>
    obtain ⟨hi, rfl⟩ := List.getElem?_eq_some_iff.mp hx
    obtain ⟨hj, rfl⟩ := List.getElem?_eq_some_iff.mp hy
    exact List.set_set_perm hi hj
  case h_2 => exact .refl xs

/-! ### Insertion -/

/-- Inserts an element behind the first ones that it passes. -/
def insertPast (passes : α → Bool) (x : α) (xs : List α) : List α :=
  xs.takeWhile passes ++ x :: xs.dropWhile passes

theorem insertPast_perm (passes : α → Bool) (x : α) (xs : List α) :
    (insertPast passes x xs).Perm (x :: xs) := by
  refine List.perm_middle.trans ?_
  rw [List.takeWhile_append_dropWhile]

/-- Inserts the elements one by one from the end of those before them. -/
def insertionSort (xs : List α) : List α :=
  (xs.foldl (fun sorted x => insertPast (less x) x sorted) []).reverse

/-- Goes up the list while no element is less than the one before it. What was
passed is given in reverse. -/
def climb (run : List α) : List α → List α × List α
  | [] => (run, [])
  | x :: rest => if run.head?.any (less x) then (run, x :: rest) else climb (x :: run) rest

/-- Climbs the list, and moves both elements of a pair that is out of order to
their places, for at most so many pairs. Tells whether the end was reached. -/
def settle (long : Bool) : Nat → List α → List α → List α × Bool
  | 0, run, rest => (run.reverse ++ rest, false)
  | k + 1, run, rest =>
    match climb less run rest with
    | (y :: run, x :: rest) =>
      if long then settle long k (insertPast (less x) x run) (insertPast (less · y) y rest)
      else ((y :: run).reverse ++ x :: rest, false)
    | (run, rest) => (run.reverse ++ rest, rest.isEmpty)

/-- Sorts a list with few elements out of place, and tells whether it did. No
element of a short list is moved. -/
def partialInsertionSort (xs : List α) : List α × Bool :=
  settle less (decide (50 ≤ xs.length)) 5 [] xs

theorem climb_append (run rest : List α) :
    (climb less run rest).1.reverse ++ (climb less run rest).2 = run.reverse ++ rest := by
  induction rest generalizing run with
  | nil => rfl
  | cons x rest ih =>
    unfold climb
    split
    · rfl
    · rw [ih]
      simp

theorem settle_perm (long : Bool) (k : Nat) (run rest : List α) :
    (settle less long k run rest).1.Perm (run.reverse ++ rest) := by
  induction k generalizing run rest with
  | zero => exact .refl _
  | succ k ih =>
    unfold settle
    split
    case h_1 y below x above hclimb =>
      have happend := climb_append less run rest
      rw [hclimb] at happend
      rw [← happend]
      split
      · refine (ih _ _).trans ?_
        calc ((insertPast (less x) x below).reverse ++ insertPast (less · y) y above).Perm
              ((x :: below) ++ y :: above) :=
            ((List.reverse_perm _).trans (insertPast_perm _ x below)).append
              (insertPast_perm _ y above)
          _ |>.Perm ((y :: below) ++ x :: above) := by
            refine .trans (.cons x List.perm_middle) ?_
            exact .trans (.swap y x _) (.cons y List.perm_middle.symm)
          _ |>.Perm ((y :: below).reverse ++ x :: above) :=
            (List.reverse_perm _).symm.append_right _
      · exact .refl _
    case h_2 run' rest' _ hclimb =>
      rw [← climb_append less run rest, hclimb]

theorem partialInsertionSort_perm (xs : List α) : (partialInsertionSort less xs).1.Perm xs :=
  settle_perm less _ 5 [] xs

/-! ### Heaps -/

/-- The greater child of an element in a heap of this size, the first one if
the second is not greater. -/
def greaterChild (xs : List α) (root size : Nat) : Nat :=
  if 2 * root + 2 < size ∧ lessAt less xs (2 * root + 1) (2 * root + 2) then 2 * root + 2
  else 2 * root + 1

/-- Moves an element down in the heap, in exchange with its greater child, until
that is not greater than the element. -/
def siftDown (xs : List α) (root size : Nat) : List α :=
  let child := greaterChild less xs root size
  if 2 * root + 1 < size && lessAt less xs root child then
    siftDown (swap xs root child) child size
  else xs
termination_by size - root
decreasing_by
  simp_all only [greaterChild, Bool.and_eq_true, decide_eq_true_eq]
  split <;> omega

/-- Makes a heap of the list, from the last of the first so many elements to
the first. -/
def heapify (xs : List α) : Nat → List α
  | 0 => xs
  | k + 1 => heapify (siftDown less xs k xs.length) k

/-- Takes the greatest element out of the heap of the first so many elements,
again and again. -/
def drain (xs : List α) : Nat → List α
  | 0 => xs
  | k + 1 => drain (siftDown less (swap xs 0 k) 0 k) k

def heapSort (xs : List α) : List α :=
  drain less (heapify less xs ((xs.length - 1) / 2 + 1)) xs.length

/-! ### Splitting -/

/-- Splits a list at the last element that is to be kept. -/
def splitLast (keep : α → Bool) : List α → Option (List α × α × List α)
  | [] => none
  | x :: xs =>
    match splitLast keep xs with
    | some (mid, y, back) => some (x :: mid, y, back)
    | none => if keep x then some ([], x, xs) else none

theorem eq_of_splitLast {keep : α → Bool} {xs mid back : List α} {y : α}
    (h : splitLast keep xs = some (mid, y, back)) : xs = mid ++ y :: back := by
  induction xs generalizing mid with
  | nil => cases h
  | cons x xs ih =>
    unfold splitLast at h
    split at h
    case h_1 hlast =>
      cases h
      rw [ih hlast]
      rfl
    case h_2 =>
      split at h <;> cases h
      rfl

theorem length_of_splitLast {keep : α → Bool} {xs mid back : List α} {y : α}
    (h : splitLast keep xs = some (mid, y, back)) : mid.length < xs.length := by
  simp [eq_of_splitLast h]

/-- Separates the elements to be kept from the others: the first that is not
is exchanged with the last that is, and so on between the two. -/
def exchange (keep : α → Bool) : List α → List α × List α
  | [] => ([], [])
  | x :: xs =>
    if keep x then
      let parts := exchange keep xs
      (x :: parts.1, parts.2)
    else
      match h : splitLast keep xs with
      | none => ([], x :: xs)
      | some (mid, y, back) =>
        have := length_of_splitLast h
        let parts := exchange keep mid
        (y :: parts.1, parts.2 ++ x :: back)
termination_by xs => xs.length

theorem exchange_perm (keep : α → Bool) (xs : List α) :
    ((exchange keep xs).1 ++ (exchange keep xs).2).Perm xs := by
  fun_induction exchange keep xs with
  | case1 => exact .refl _
  | case2 x xs _ parts ih => exact ih.cons x
  | case3 x xs _ hlast => exact .refl _
  | case4 x xs _ mid y back hlast _ parts ih =>
    rw [eq_of_splitLast hlast]
    calc (y :: parts.1 ++ (parts.2 ++ x :: back)).Perm (y :: (mid ++ x :: back)) := by
          rw [← List.append_assoc]
          exact .cons y (by simpa using ih.append_right (x :: back))
      _ |>.Perm (y :: x :: (mid ++ back)) := .cons y List.perm_middle
      _ |>.Perm (x :: y :: (mid ++ back)) := .swap x y _
      _ |>.Perm (x :: (mid ++ y :: back)) := .cons x List.perm_middle.symm

/-- Whether all that is to be kept stands in front already. -/
def isSplit (keep : α → Bool) (xs : List α) : Bool :=
  (xs.dropWhile keep).all fun x => !keep x

/-- The last element comes first. -/
def rotate (xs : List α) : List α := xs.getLast?.toList ++ xs.dropLast

theorem rotate_perm (xs : List α) : (rotate xs).Perm xs := by
  unfold rotate
  cases hlast : xs.getLast? with
  | none => simp [List.getLast?_eq_none_iff.mp hlast]
  | some y =>
    obtain ⟨ys, rfl⟩ := List.getLast?_eq_some_iff.mp hlast
    simpa using (List.perm_append_singleton y ys).symm

/-! ### Pivots -/

/-- What the samples tell about the order of a range. -/
inductive Hint where
  | unknown
  | increasing
  | decreasing
deriving DecidableEq, Repr

/-- Two places in the order of their elements, and the exchanges so far. -/
def orderPair (xs : List α) (i j swaps : Nat) : Nat × Nat × Nat :=
  if lessAt less xs j i then (j, i, swaps + 1) else (i, j, swaps)

/-- The place with the median of three elements. -/
def median (xs : List α) (i j k swaps : Nat) : Nat × Nat :=
  let (i, j, swaps) := orderPair less xs i j swaps
  let (j, _, swaps) := orderPair less xs j k swaps
  let (_, j, swaps) := orderPair less xs i j swaps
  (j, swaps)

/-- The place with the median of an element and its neighbours. -/
def medianAdjacent (xs : List α) (i swaps : Nat) : Nat × Nat :=
  median less xs (i - 1) i (i + 1) swaps

/-- The place of the pivot: the median of three samples, each the median of
three neighbours if the list is long. -/
def choosePivot (xs : List α) : Nat × Hint :=
  let quarter := xs.length / 4
  let (pivot, swaps) :=
    if xs.length < 8 then (quarter * 2, 0)
    else if xs.length < 50 then median less xs quarter (quarter * 2) (quarter * 3) 0
    else
      let (i, swaps) := medianAdjacent less xs quarter 0
      let (j, swaps) := medianAdjacent less xs (quarter * 2) swaps
      let (k, swaps) := medianAdjacent less xs (quarter * 3) swaps
      median less xs i j k swaps
  (pivot, if swaps = 0 then .increasing else if swaps = 12 then .decreasing else .unknown)

def bitLength (n : Nat) : Nat := if n = 0 then 0 else n.log2 + 1

/-- The number that follows in a fixed sequence without a pattern. -/
def xorshift (r : UInt64) : UInt64 :=
  let r := r ^^^ (r <<< 13)
  let r := r ^^^ (r >>> 7)
  r ^^^ (r <<< 17)

/-- Exchanges the elements from a place on with others that the sequence
tells. -/
def scatter (xs : List α) (r : UInt64) (place : Nat) : Nat → List α
  | 0 => xs
  | k + 1 =>
    let other := (xorshift r).toNat % 2 ^ bitLength xs.length
    let other := if other < xs.length then other else other - xs.length
    scatter (swap xs place other) (xorshift r) (place + 1) k

/-- Exchanges three elements around the middle with others. -/
def breakPatterns (xs : List α) : List α :=
  if xs.length < 8 then xs else scatter xs (.ofNat xs.length) (xs.length / 4 * 2 - 2) 3

theorem scatter_perm (xs : List α) (r : UInt64) (place k : Nat) :
    (scatter xs r place k).Perm xs := by
  induction k generalizing xs r place with
  | zero => exact .refl xs
  | succ k ih => exact (ih _ _ _).trans (swap_perm _ _ _)

theorem breakPatterns_perm (xs : List α) : (breakPatterns xs).Perm xs := by
  unfold breakPatterns
  split
  · exact .refl xs
  · exact scatter_perm _ _ _ _

/-! ### Rounds -/

/-- What a round makes of a range: it is sorted; or it starts with elements
that equal the pivot; or it is split around the pivot, and may have been so
before. -/
inductive Round (α : Type) where
  | sorted (xs : List α)
  | equal (pivot : α) (same rest : List α)
  | split (left : List α) (pivot : α) (right : List α) (already : Bool)

def Round.elements : Round α → List α
  | sorted xs => xs
  | equal pivot same rest => pivot :: same ++ rest
  | split left pivot right _ => left ++ pivot :: right

/-- The range with its pivot in front, unless moving a few elements sorts
it. -/
def prepare (balanced partitioned : Bool) (xs : List α) : List α × Bool :=
  let xs := if balanced then xs else breakPatterns xs
  let (pivot, hint) := choosePivot less xs
  let (xs, pivot) :=
    if hint = .decreasing then (xs.reverse, xs.length - 1 - pivot) else (xs, pivot)
  if balanced && partitioned && hint ≠ .unknown then
    match partialInsertionSort less xs with
    | (ys, true) => (ys, true)
    | (ys, false) => (swap ys 0 pivot, false)
  else (swap xs 0 pivot, false)

/-- One round, after a split that was balanced or not, of a range that was
partitioned before it or not. If the pivot is no greater than the element in
front of the range, it is the least one there, and those that equal it are set
aside. -/
def round (before : Option α) (balanced partitioned : Bool) (xs : List α) : Round α :=
  match prepare less balanced partitioned xs with
  | (xs, true) => .sorted xs
  | ([], false) => .sorted []
  | (pivot :: rest, false) =>
    if before.any fun x => !less x pivot then
      let parts := exchange (fun x => !less pivot x) rest
      .equal pivot parts.1 parts.2
    else
      let parts := exchange (less · pivot) rest
      .split (rotate parts.1) pivot parts.2 (isSplit (less · pivot) rest)

/-- The elements are rearranged, and then they are settled or the pivot is
brought to the front. -/
theorem exists_prepare (balanced partitioned : Bool) (xs : List α) :
    ∃ ys : List α, ys.Perm xs ∧
      (prepare less balanced partitioned xs = partialInsertionSort less ys ∧
          (partialInsertionSort less ys).2 = true ∨
        ∃ pivot, prepare less balanced partitioned xs = (swap ys 0 pivot, false)) := by
  have hbroken : (if balanced then xs else breakPatterns xs).Perm xs := by
    split
    · exact .refl xs
    · exact breakPatterns_perm xs
  unfold prepare
  generalize (if balanced then xs else breakPatterns xs) = ys at *
  have hturned : (if (choosePivot less ys).2 = .decreasing
      then (ys.reverse, ys.length - 1 - (choosePivot less ys).1)
      else (ys, (choosePivot less ys).1)).1.Perm ys := by
    split
    · exact List.reverse_perm ys
    · exact .refl ys
  simp only
  generalize (if (choosePivot less ys).2 = .decreasing
      then (ys.reverse, ys.length - 1 - (choosePivot less ys).1)
      else (ys, (choosePivot less ys).1)) = turned at *
  split
  · split
    case h_1 zs hsettled =>
      exact ⟨turned.1, hturned.trans hbroken, .inl ⟨hsettled.symm, by rw [hsettled]⟩⟩
    case h_2 zs hsettled =>
      refine ⟨zs, ?_, .inr ⟨_, rfl⟩⟩
      have hperm := partialInsertionSort_perm less turned.1
      rw [hsettled] at hperm
      exact hperm.trans (hturned.trans hbroken)
  · exact ⟨turned.1, hturned.trans hbroken, .inr ⟨_, rfl⟩⟩

theorem prepare_perm (balanced partitioned : Bool) (xs : List α) :
    (prepare less balanced partitioned xs).1.Perm xs := by
  obtain ⟨ys, hperm, ⟨hsettled, -⟩ | ⟨pivot, hfront⟩⟩ := exists_prepare less balanced partitioned xs
  · rw [hsettled]
    exact (partialInsertionSort_perm less ys).trans hperm
  · rw [hfront]
    exact (swap_perm ys 0 pivot).trans hperm

variable {less} in
theorem perm_of_round {before : Option α} {balanced partitioned : Bool} {xs : List α}
    {r : Round α} (h : round less before balanced partitioned xs = r) : r.elements.Perm xs := by
  refine .trans ?_ (prepare_perm less balanced partitioned xs)
  rw [← h]
  unfold round
  split
  case h_1 hprepared => rw [hprepared]; exact .refl _
  case h_2 hprepared => rw [hprepared]; exact .refl _
  case h_3 pivot rest hprepared =>
    rw [hprepared]
    split
    · exact (exchange_perm _ rest).cons pivot
    · refine List.perm_middle.trans (.cons pivot ?_)
      exact ((rotate_perm _).append_right _).trans (exchange_perm _ rest)

/-- Sorts a range, round by round. `before` is the element in front of it. A
split is bad if one side has less than an eighth of the elements, and only
`limit` bad splits are followed by a round. The shorter side starts afresh. -/
def sortRange (before : Option α) (limit : Nat) (balanced partitioned : Bool) (xs : List α) :
    List α :=
  if xs.length ≤ 12 then insertionSort less xs
  else if limit = 0 then heapSort less xs
  else
    let limit := if balanced then limit else limit - 1
    match h : round less before balanced partitioned xs with
    | .sorted ys => ys
    | .equal pivot same rest =>
      have := (perm_of_round h).length_eq
      pivot :: same ++ sortRange (pivot :: same).getLast? limit balanced partitioned rest
    | .split left pivot right already =>
      have := (perm_of_round h).length_eq
      let good := decide (xs.length / 8 ≤ min left.length (right.length + 1))
      let shorter := decide (left.length < right.length + 1)
      sortRange before limit (shorter || good) (shorter || already) left ++ pivot ::
        sortRange (some pivot) limit (!shorter || good) (!shorter || already) right
termination_by xs.length
decreasing_by
  all_goals
    simp [Round.elements] at this
    omega

def sort (xs : List α) : List α :=
  sortRange less none (bitLength xs.length) true true xs

end OffsetGaps.Sorting
