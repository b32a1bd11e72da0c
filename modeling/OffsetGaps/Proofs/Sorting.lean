/-
# What is sorted is in order

Whatever the comparison, a sorted list has the elements of the list that was
given. If the comparison is a strict weak order on these elements, no element
stands behind a greater one. Every way to sort is followed here: an insertion
keeps the order of a run, a heap has its greatest element in front, and a round
leaves nothing that is less than the pivot on its right and nothing else on
its left.

Key definitions: `Sorting.IsOrderOn`, `Sorting.Heaped`, `Sorting.Drained`,
`Sorting.Behind`.
Key theorems: `Sorting.sort_perm`, `Sorting.sort_pairwise`,
`Sorting.sort_eq_of_perm`.
-/
import Mathlib
import OffsetGaps.Sorting

namespace OffsetGaps.Sorting

variable {α : Type} {less : α → α → Bool} {S : α → Prop}

/-- On some elements the comparison is a strict weak order. -/
structure IsOrderOn (less : α → α → Bool) (S : α → Prop) : Prop where
  asymm : ∀ {x y}, S x → S y → less x y = true → less y x = false
  trans : ∀ {x y z}, S x → S y → S z → less y x = false → less z y = false → less z x = false

theorem IsOrderOn.irrefl (h : IsOrderOn less S) {x : α} (hx : S x) : less x x = false := by
  by_contra hless
  have htrue : less x x = true := by simpa using hless
  simp [h.asymm hx hx htrue] at htrue

/-! ### Insertion -/

/-- A run in reverse stays in order when an element is put in front of it that
is not less than its first. -/
theorem IsOrderOn.pairwise_cons (h : IsOrderOn less S) {x : α} {run : List α} (hx : S x)
    (hrun : ∀ y ∈ run, S y) (hhead : run.head?.any (less x) = false)
    (hsorted : run.Pairwise fun x y => less x y = false) :
    (x :: run).Pairwise fun x y => less x y = false := by
  cases run with
  | nil => simp
  | cons y run =>
    obtain ⟨hy, -⟩ := List.pairwise_cons.mp hsorted
    obtain ⟨hSy, hSrun⟩ := List.forall_mem_cons.mp hrun
    have hxy : less x y = false := by simpa using hhead
    refine List.pairwise_cons.mpr ⟨?_, hsorted⟩
    intro z hz
    rcases List.mem_cons.mp hz with rfl | hz
    · exact hxy
    · exact h.trans (hSrun z hz) hSy hx (hy z hz) hxy

theorem IsOrderOn.pairwise_insertPast (h : IsOrderOn less S) {x : α} {run : List α} (hx : S x)
    (hrun : ∀ y ∈ run, S y) (hsorted : run.Pairwise fun x y => less x y = false) :
    (insertPast (less x) x run).Pairwise fun x y => less x y = false := by
  induction run with
  | nil => simp [insertPast]
  | cons y run ih =>
    obtain ⟨hSy, hSrun⟩ := List.forall_mem_cons.mp hrun
    obtain ⟨hy, hsorted'⟩ := List.pairwise_cons.mp hsorted
    cases hless : less x y with
    | false =>
      have hstays : insertPast (less x) x (y :: run) = x :: y :: run := by
        simp [insertPast, hless]
      rw [hstays]
      exact h.pairwise_cons hx hrun (by simpa using hless) hsorted
    | true =>
      have hpasses : insertPast (less x) x (y :: run) = y :: insertPast (less x) x run := by
        simp [insertPast, hless]
      rw [hpasses]
      refine List.pairwise_cons.mpr ⟨fun z hz => ?_, ih hSrun hsorted'⟩
      rcases List.mem_cons.mp ((insertPast_perm _ x run).mem_iff.mp hz) with rfl | hz
      · exact h.asymm hx hSy hless
      · exact hy z hz

theorem foldl_insertPast_perm (less : α → α → Bool) (xs run : List α) :
    (xs.foldl (fun sorted x => insertPast (less x) x sorted) run).Perm (xs ++ run) := by
  induction xs generalizing run with
  | nil => exact .refl run
  | cons x xs ih =>
    refine (ih _).trans (.trans (.append_left xs (insertPast_perm _ x run)) ?_)
    exact List.perm_middle

theorem insertionSort_perm (less : α → α → Bool) (xs : List α) :
    (insertionSort less xs).Perm xs := by
  have hperm := foldl_insertPast_perm less xs []
  rw [List.append_nil] at hperm
  exact (List.reverse_perm _).trans hperm

theorem IsOrderOn.insertionSort_pairwise (h : IsOrderOn less S) {xs : List α}
    (hxs : ∀ x ∈ xs, S x) : (insertionSort less xs).Pairwise fun x y => less y x = false := by
  -- what has been inserted is in order, in reverse
  have hfold : ∀ run : List α, (∀ y ∈ run, S y) → run.Pairwise (fun x y => less x y = false) →
      (xs.foldl (fun sorted x => insertPast (less x) x sorted) run).Pairwise
        fun x y => less x y = false := by
    induction xs with
    | nil => exact fun run _ hsorted => hsorted
    | cons x xs ih =>
      intro run hrun hsorted
      obtain ⟨hx, hxs⟩ := List.forall_mem_cons.mp hxs
      refine ih hxs _ (fun y hy => ?_) (h.pairwise_insertPast hx hrun hsorted)
      rcases List.mem_cons.mp ((insertPast_perm _ x run).mem_iff.mp hy) with rfl | hy
      · exact hx
      · exact hrun y hy
  rw [insertionSort, List.pairwise_reverse]
  exact hfold [] (by simp) .nil

theorem IsOrderOn.climb_pairwise (h : IsOrderOn less S) {run rest : List α}
    (hall : ∀ y ∈ run ++ rest, S y) (hsorted : run.Pairwise fun x y => less x y = false) :
    (climb less run rest).1.Pairwise fun x y => less x y = false := by
  induction rest generalizing run with
  | nil => exact hsorted
  | cons x rest ih =>
    unfold climb
    split
    · exact hsorted
    case isFalse hhead =>
      refine ih (fun y hy => hall y (by grind)) ?_
      exact h.pairwise_cons (hall x (by simp)) (fun y hy => hall y (by simp [hy]))
        (by simpa using hhead) hsorted

/-- A list that could be settled is in order. -/
theorem IsOrderOn.settle_pairwise (h : IsOrderOn less S) {long : Bool} {k : Nat}
    {run rest : List α} (hall : ∀ y ∈ run ++ rest, S y)
    (hsorted : run.Pairwise fun x y => less x y = false)
    (hsettled : (settle less long k run rest).2 = true) :
    (settle less long k run rest).1.Pairwise fun x y => less y x = false := by
  induction k generalizing run rest with
  | zero => cases hsettled
  | succ k ih =>
    have hclimbed := h.climb_pairwise hall hsorted
    have happend := climb_append less run rest
    have hmem : ∀ y ∈ (climb less run rest).1 ++ (climb less run rest).2, S y := by
      intro y hy
      refine hall y ?_
      have hy' : y ∈ run.reverse ++ rest := by
        rw [← happend]
        simpa using hy
      simpa using hy'
    unfold settle at hsettled ⊢
    split at hsettled
    case h_1 y below x above hclimb =>
      rw [hclimb] at hclimbed hmem
      cases long with
      | false => cases hsettled
      | true =>
        simp only [if_true] at hsettled ⊢
        refine ih (fun z hz => hmem z ?_) ?_ hsettled
        · rcases List.mem_append.mp hz with hz | hz
          · have := (insertPast_perm _ x below).mem_iff.mp hz
            grind
          · have := (insertPast_perm _ y above).mem_iff.mp hz
            grind
        · exact h.pairwise_insertPast (hmem x (by simp)) (fun z hz => hmem z (by simp [hz]))
            (List.pairwise_cons.mp hclimbed).2
    case h_2 run' rest' _ hclimb =>
      rw [hclimb] at hclimbed
      obtain rfl : rest' = [] := by simpa using hsettled
      simpa [List.pairwise_reverse] using hclimbed

theorem IsOrderOn.partialInsertionSort_pairwise (h : IsOrderOn less S) {xs : List α}
    (hxs : ∀ x ∈ xs, S x) (hsettled : (partialInsertionSort less xs).2 = true) :
    (partialInsertionSort less xs).1.Pairwise fun x y => less y x = false :=
  h.settle_pairwise hxs .nil hsettled

/-! ### Heaps -/

theorem length_swap (xs : List α) (i j : Nat) : (swap xs i j).length = xs.length :=
  (swap_perm xs i j).length_eq

theorem getElem?_swap {xs : List α} {i j : Nat} (hi : i < xs.length) (hj : j < xs.length)
    (k : Nat) : (swap xs i j)[k]? = if k = j then xs[i]? else if k = i then xs[j]? else xs[k]? := by
  unfold swap
  grind

theorem lessAt_swap {xs : List α} {i j : Nat} (hi : i < xs.length) (hj : j < xs.length)
    (a b : Nat) : lessAt less (swap xs i j) a b =
      lessAt less xs (if a = j then i else if a = i then j else a)
        (if b = j then i else if b = i then j else b) := by
  unfold lessAt
  rw [getElem?_swap hi hj, getElem?_swap hi hj]
  grind

theorem lessAt_eq_false_iff {xs : List α} {i j : Nat} : lessAt less xs i j = false ↔
    ∀ x y, xs[i]? = some x → xs[j]? = some y → less x y = false := by
  unfold lessAt
  grind

theorem mem_of_getElem? {xs : List α} (hxs : ∀ x ∈ xs, S x) {i : Nat} {x : α}
    (h : xs[i]? = some x) : S x :=
  hxs x (List.mem_of_getElem? h)

theorem IsOrderOn.lessAt_asymm (h : IsOrderOn less S) {xs : List α} (hxs : ∀ x ∈ xs, S x)
    {i j : Nat} (hless : lessAt less xs i j = true) : lessAt less xs j i = false := by
  rw [lessAt_eq_false_iff]
  intro y x hy hx
  refine h.asymm (mem_of_getElem? hxs hx) (mem_of_getElem? hxs hy) ?_
  simpa [lessAt, hx, hy] using hless

theorem IsOrderOn.lessAt_trans (h : IsOrderOn less S) {xs : List α} (hxs : ∀ x ∈ xs, S x)
    {i j k : Nat} (hj : j < xs.length) (hij : lessAt less xs i j = false)
    (hjk : lessAt less xs j k = false) : lessAt less xs i k = false := by
  rw [lessAt_eq_false_iff] at *
  intro x z hx hz
  have hy : xs[j]? = some xs[j] := List.getElem?_eq_getElem hj
  exact h.trans (mem_of_getElem? hxs hz) (mem_of_getElem? hxs hy) (mem_of_getElem? hxs hx)
    (hjk _ _ hy hz) (hij _ _ hx hy)

/-- From a place on, no parent is less than its children. -/
def Heaped (less : α → α → Bool) (xs : List α) (first size : Nat) : Prop :=
  ∀ p c, first ≤ p → c = 2 * p + 1 ∨ c = 2 * p + 2 → c < size → lessAt less xs p c = false

/-- An element is being moved down: all parents but this one are in order, and
the parent above is not less than the children below. -/
structure Sifting (less : α → α → Bool) (xs : List α) (first root size : Nat) : Prop where
  others : ∀ p c, first ≤ p → p ≠ root → c = 2 * p + 1 ∨ c = 2 * p + 2 → c < size →
    lessAt less xs p c = false
  across : ∀ p c, first ≤ p → root = 2 * p + 1 ∨ root = 2 * p + 2 →
    c = 2 * root + 1 ∨ c = 2 * root + 2 → c < size → lessAt less xs p c = false

/-- Nothing behind the first so many elements is less than any before it. -/
def Drained (less : α → α → Bool) (xs : List α) (size : Nat) : Prop :=
  ∀ i j, i < j → size ≤ j → lessAt less xs j i = false

theorem greaterChild_eq (less : α → α → Bool) (xs : List α) (root size : Nat) :
    greaterChild less xs root size = 2 * root + 1 ∨
      greaterChild less xs root size = 2 * root + 2 := by
  unfold greaterChild
  split
  · exact .inr rfl
  · exact .inl rfl

theorem greaterChild_lt (less : α → α → Bool) (xs : List α) {root size : Nat}
    (h : 2 * root + 1 < size) : greaterChild less xs root size < size := by
  unfold greaterChild
  split <;> omega

theorem IsOrderOn.lessAt_greaterChild (h : IsOrderOn less S) {xs : List α} (hxs : ∀ x ∈ xs, S x)
    {root size c : Nat} (hc : c = 2 * root + 1 ∨ c = 2 * root + 2) (hsize : c < size) :
    lessAt less xs (greaterChild less xs root size) c = false := by
  have hirrefl : lessAt less xs c c = false := by
    by_contra hless
    have htrue : lessAt less xs c c = true := by simpa using hless
    exact hless (h.lessAt_asymm hxs htrue)
  unfold greaterChild
  split
  case isTrue hsecond =>
    rcases hc with rfl | rfl
    · exact h.lessAt_asymm hxs hsecond.2
    · exact hirrefl
  case isFalse hfirst =>
    rcases hc with rfl | rfl
    · exact hirrefl
    · simpa [hsize] using hfirst

/-- Moving an element down exchanges elements of the heap. -/
theorem siftDown_induction {P : List α → Prop} {size : Nat}
    (hswap : ∀ xs i j, i < size → j < size → P xs → P (swap xs i j)) {xs : List α} (root : Nat)
    (hxs : P xs) : P (siftDown less xs root size) := by
  fun_induction siftDown less xs root size with
  | case1 xs root child hless ih =>
    rw [Bool.and_eq_true, decide_eq_true_eq] at hless
    exact ih (hswap xs root child (by omega) (greaterChild_lt less xs hless.1) hxs)
  | case2 => exact hxs

theorem siftDown_perm (less : α → α → Bool) (xs : List α) (root size : Nat) :
    (siftDown less xs root size).Perm xs :=
  siftDown_induction (P := (·.Perm xs)) (fun ys i j _ _ h => (swap_perm ys i j).trans h) root
    (.refl xs)

theorem drained_siftDown {xs : List α} {size : Nat} (hsize : size ≤ xs.length) (root : Nat)
    (h : Drained less xs size) : Drained less (siftDown less xs root size) size := by
  refine (siftDown_induction (P := fun ys => size ≤ ys.length ∧ Drained less ys size)
    (fun ys i j hi hj hys => ?_) root ⟨hsize, h⟩).2
  obtain ⟨hlen, hys⟩ := hys
  refine ⟨by rwa [length_swap], fun a b hab hb => ?_⟩
  rw [lessAt_swap (by omega) (by omega)]
  grind [Drained]

theorem IsOrderOn.sifting_swap (h : IsOrderOn less S) {xs : List α} {first root size : Nat}
    (hxs : ∀ x ∈ xs, S x) (hsize : size ≤ xs.length) (hfirst : first ≤ root)
    (hleft : 2 * root + 1 < size)
    (hless : lessAt less xs root (greaterChild less xs root size) = true)
    (hsifting : Sifting less xs first root size) :
    Sifting less (swap xs root (greaterChild less xs root size)) first
      (greaterChild less xs root size) size := by
  have hchild := greaterChild_eq less xs root size
  have hlt := greaterChild_lt less xs hleft
  have hgreater : ∀ c, c = 2 * root + 1 ∨ c = 2 * root + 2 → c < size →
      lessAt less xs (greaterChild less xs root size) c = false :=
    fun c => h.lessAt_greaterChild hxs
  have hasymm := h.lessAt_asymm hxs hless
  obtain ⟨hothers, hacross⟩ := hsifting
  generalize greaterChild less xs root size = child at *
  constructor
  · intro p c hp hne hc hlt'
    rw [lessAt_swap (by omega) (by omega)]
    grind
  · intro p c hp hp' hc hlt'
    rw [lessAt_swap (by omega) (by omega)]
    grind

/-- An element that is moved down ends in a heap. -/
theorem IsOrderOn.heaped_siftDown (h : IsOrderOn less S) {xs : List α} {first root size : Nat}
    (hxs : ∀ x ∈ xs, S x) (hsize : size ≤ xs.length) (hfirst : first ≤ root)
    (hsifting : Sifting less xs first root size) :
    Heaped less (siftDown less xs root size) first size := by
  fun_induction siftDown less xs root size with
  | case1 xs root child hless ih =>
    rw [Bool.and_eq_true, decide_eq_true_eq] at hless
    refine ih (fun x hx => hxs x ((swap_perm _ _ _).mem_iff.mp hx)) (by rwa [length_swap]) ?_
      (h.sifting_swap hxs hsize hfirst hless.1 hless.2 hsifting)
    have := greaterChild_eq less xs root size
    omega
  | case2 xs root child hless =>
    intro p c hp hc hlt
    by_cases hroot : p = root
    · subst hroot
      have hchild : child < size := greaterChild_lt less xs (by omega)
      have hnot : lessAt less xs p child = false := by
        simpa [show 2 * p + 1 < size by omega] using hless
      exact h.lessAt_trans hxs (by omega) hnot (h.lessAt_greaterChild hxs hc hlt)
    · exact hsifting.others p c hp hroot hc hlt

theorem IsOrderOn.heaped_heapify (h : IsOrderOn less S) {xs : List α} {k : Nat}
    (hxs : ∀ x ∈ xs, S x) (hheaped : Heaped less xs k xs.length) :
    Heaped less (heapify less xs k) 0 xs.length := by
  induction k generalizing xs with
  | zero => exact hheaped
  | succ k ih =>
    have hperm := siftDown_perm less xs k xs.length
    have hsifting : Sifting less xs k k xs.length :=
      ⟨fun p c hp hne => hheaped p c (by omega), fun p c hp hk => by omega⟩
    have hsifted := h.heaped_siftDown hxs (Nat.le_refl _) (Nat.le_refl k) hsifting
    have hnext := ih (fun x hx => hxs x (hperm.mem_iff.mp hx)) (by rwa [hperm.length_eq])
    rwa [hperm.length_eq] at hnext

/-- No element of a heap is greater than its first. -/
theorem IsOrderOn.lessAt_root (h : IsOrderOn less S) {xs : List α} {size : Nat}
    (hxs : ∀ x ∈ xs, S x) (hsize : size ≤ xs.length) (hheaped : Heaped less xs 0 size) {i : Nat}
    (hi : i < size) : lessAt less xs 0 i = false := by
  induction i using Nat.strongRecOn with
  | ind i ih =>
    by_cases hzero : i = 0
    · subst hzero
      by_contra hless
      have htrue : lessAt less xs 0 0 = true := by simpa using hless
      exact hless (h.lessAt_asymm hxs htrue)
    · have hparent : lessAt less xs ((i - 1) / 2) i = false :=
        hheaped ((i - 1) / 2) i (by omega) (by omega) hi
      exact h.lessAt_trans hxs (by omega) (ih ((i - 1) / 2) (by omega) (by omega)) hparent

theorem IsOrderOn.drained_drain (h : IsOrderOn less S) {xs : List α} {k : Nat}
    (hxs : ∀ x ∈ xs, S x) (hk : k ≤ xs.length) (hheaped : Heaped less xs 0 k)
    (hdrained : Drained less xs k) : Drained less (drain less xs k) 0 := by
  induction k generalizing xs with
  | zero => exact hdrained
  | succ k ih =>
    have hroot : ∀ i, i < k + 1 → lessAt less xs 0 i = false :=
      fun i => h.lessAt_root hxs hk hheaped
    have hswapped : Drained less (swap xs 0 k) k := by
      intro i j hij hj
      rw [lessAt_swap (by omega) (by omega)]
      grind [Drained]
    have hsifting : Sifting less (swap xs 0 k) 0 0 k := by
      refine ⟨fun p c _ hp hc hlt => ?_, fun p c _ hp => by omega⟩
      rw [lessAt_swap (by omega) (by omega)]
      grind [Heaped]
    have hmem : ∀ x ∈ swap xs 0 k, S x := fun x hx => hxs x ((swap_perm _ _ _).mem_iff.mp hx)
    have hlen : k ≤ (swap xs 0 k).length := by
      rw [length_swap]
      omega
    have hperm := siftDown_perm less (swap xs 0 k) 0 k
    refine ih (fun x hx => hmem x (hperm.mem_iff.mp hx)) (by rwa [hperm.length_eq]) ?_ ?_
    · exact h.heaped_siftDown hmem hlen (Nat.le_refl 0) hsifting
    · exact drained_siftDown hlen 0 hswapped

theorem heapify_perm (less : α → α → Bool) (xs : List α) (k : Nat) :
    (heapify less xs k).Perm xs := by
  induction k generalizing xs with
  | zero => exact .refl xs
  | succ k ih => exact (ih _).trans (siftDown_perm less xs k xs.length)

theorem drain_perm (less : α → α → Bool) (xs : List α) (k : Nat) : (drain less xs k).Perm xs := by
  induction k generalizing xs with
  | zero => exact .refl xs
  | succ k ih => exact (ih _).trans ((siftDown_perm less _ 0 k).trans (swap_perm xs 0 k))

theorem heapSort_perm (less : α → α → Bool) (xs : List α) : (heapSort less xs).Perm xs :=
  (drain_perm less _ _).trans (heapify_perm less xs _)

theorem IsOrderOn.heapSort_pairwise (h : IsOrderOn less S) {xs : List α} (hxs : ∀ x ∈ xs, S x) :
    (heapSort less xs).Pairwise fun x y => less y x = false := by
  have hperm := heapify_perm less xs ((xs.length - 1) / 2 + 1)
  have hheaped : Heaped less (heapify less xs ((xs.length - 1) / 2 + 1)) 0 xs.length :=
    h.heaped_heapify hxs fun p c hp hc hlt => by omega
  have hdrained : Drained less (heapSort less xs) 0 := by
    refine h.drained_drain (fun x hx => hxs x (hperm.mem_iff.mp hx)) (Nat.le_of_eq hperm.length_eq.symm)
      hheaped ?_
    intro i j _ hj
    rw [lessAt_eq_false_iff]
    intro x y hx
    rw [List.getElem?_eq_none (by rwa [hperm.length_eq])] at hx
    cases hx
  rw [List.pairwise_iff_getElem]
  intro i j hi hj hij
  exact lessAt_eq_false_iff.mp (hdrained i j hij (Nat.zero_le j)) _ _
    (List.getElem?_eq_getElem hj) (List.getElem?_eq_getElem hi)

/-! ### Rounds -/

theorem splitLast_eq_none {keep : α → Bool} {xs : List α} (h : splitLast keep xs = none) :
    ∀ x ∈ xs, keep x = false := by
  induction xs with
  | nil => simp
  | cons x xs ih =>
    unfold splitLast at h
    split at h
    · cases h
    case h_2 hlast =>
      refine List.forall_mem_cons.mpr ⟨?_, ih hlast⟩
      simpa using h

theorem splitLast_keep {keep : α → Bool} {xs mid back : List α} {y : α}
    (h : splitLast keep xs = some (mid, y, back)) :
    keep y = true ∧ ∀ x ∈ back, keep x = false := by
  induction xs generalizing mid with
  | nil => cases h
  | cons x xs ih =>
    unfold splitLast at h
    split at h
    case h_1 hlast =>
      cases h
      exact ih hlast
    case h_2 hlast =>
      split at h <;> cases h
      exact ⟨by assumption, splitLast_eq_none hlast⟩

/-- What is to be kept is separated from the rest. -/
theorem exchange_keep (keep : α → Bool) (xs : List α) :
    (∀ x ∈ (exchange keep xs).1, keep x = true) ∧
      ∀ x ∈ (exchange keep xs).2, keep x = false := by
  fun_induction exchange keep xs with
  | case1 => simp
  | case2 x xs hkeep parts ih => exact ⟨List.forall_mem_cons.mpr ⟨hkeep, ih.1⟩, ih.2⟩
  | case3 x xs hkeep hlast =>
    exact ⟨by simp, List.forall_mem_cons.mpr ⟨by simpa using hkeep, splitLast_eq_none hlast⟩⟩
  | case4 x xs hkeep mid y back hlast _ parts ih =>
    obtain ⟨hy, hback⟩ := splitLast_keep hlast
    refine ⟨List.forall_mem_cons.mpr ⟨hy, ih.1⟩, fun z hz => ?_⟩
    rcases List.mem_append.mp hz with hz | hz
    · exact ih.2 z hz
    · rcases List.mem_cons.mp hz with rfl | hz
      · simpa using hkeep
      · exact hback z hz

/-- No element of the range is less than the one in front of it. -/
def Behind (less : α → α → Bool) (before : Option α) (xs : List α) : Prop :=
  ∀ y ∈ before, ∀ x ∈ xs, less x y = false

variable {before : Option α} {balanced partitioned : Bool} {xs : List α}

/-- If a round is over before it splits the range, moving a few elements was
enough. -/
theorem IsOrderOn.round_sorted (h : IsOrderOn less S) (hxs : ∀ x ∈ xs, S x) {ys : List α}
    (hround : round less before balanced partitioned xs = .sorted ys) :
    ys.Pairwise fun x y => less y x = false := by
  obtain ⟨start, hperm, hprepare⟩ := exists_prepare less balanced partitioned xs
  have hsorted := h.partialInsertionSort_pairwise fun y hy => hxs y (hperm.mem_iff.mp hy)
  unfold round at hround
  rcases hprepare with ⟨hsettled, htrue⟩ | ⟨pivot, hfront⟩
  · rw [hsettled] at hround
    split at hround
    case h_1 zs hstart =>
      cases hround
      simpa [hstart] using hsorted htrue
    case h_2 hstart => simp [hstart] at htrue
    case h_3 hstart => simp [hstart] at htrue
  · rw [hfront] at hround
    split at hround
    case h_1 hswap => cases congrArg Prod.snd hswap
    case h_2 =>
      cases hround
      exact .nil
    case h_3 => split at hround <;> cases hround

theorem round_split {left right : List α} {pivot : α} {already : Bool}
    (hround : round less before balanced partitioned xs = .split left pivot right already) :
    (∀ x ∈ left, less x pivot = true) ∧ (∀ x ∈ right, less x pivot = false) ∧
      ∀ y ∈ before, less y pivot = true := by
  unfold round at hround
  split at hround
  · cases hround
  · cases hround
  case h_3 p rest hprepared =>
    split at hround <;> cases hround
    case isFalse hbefore =>
      obtain ⟨hleft, hright⟩ := exchange_keep (less · pivot) rest
      refine ⟨fun x hx => hleft x ((rotate_perm _).mem_iff.mp hx), hright, fun y hy => ?_⟩
      obtain rfl : before = some y := hy
      simpa using hbefore

theorem round_equal {same rest : List α} {pivot : α}
    (hround : round less before balanced partitioned xs = .equal pivot same rest) :
    (∀ x ∈ same, less pivot x = false) ∧ (∀ x ∈ rest, less pivot x = true) ∧
      ∃ y ∈ before, less y pivot = false := by
  unfold round at hround
  split at hround
  · cases hround
  · cases hround
  case h_3 p others hprepared =>
    split at hround <;> cases hround
    case isTrue hbefore =>
      obtain ⟨hsame, hrest⟩ := exchange_keep (fun x => !less pivot x) others
      refine ⟨fun x hx => by simpa using hsame x hx, fun x hx => by simpa using hrest x hx, ?_⟩
      cases before with
      | none => cases hbefore
      | some y => exact ⟨y, rfl, by simpa using hbefore⟩

/-- Two sorted sides make a sorted range around a pivot between them. -/
theorem IsOrderOn.pairwise_split (h : IsOrderOn less S) {left right : List α} {pivot : α}
    (hpivot : S pivot) (hSleft : ∀ x ∈ left, S x) (hSright : ∀ x ∈ right, S x)
    (hleft : ∀ x ∈ left, less pivot x = false) (hright : ∀ x ∈ right, less x pivot = false)
    (hsleft : left.Pairwise fun x y => less y x = false)
    (hsright : right.Pairwise fun x y => less y x = false) :
    (left ++ pivot :: right).Pairwise fun x y => less y x = false := by
  refine List.pairwise_append.mpr ⟨hsleft, List.pairwise_cons.mpr ⟨hright, hsright⟩, ?_⟩
  intro x hx y hy
  rcases List.mem_cons.mp hy with rfl | hy
  · exact hleft x hx
  · exact h.trans (hSleft x hx) hpivot (hSright y hy) (hleft x hx) (hright y hy)

theorem sortRange_perm (less : α → α → Bool) (before : Option α) (limit : Nat)
    (balanced partitioned : Bool) (xs : List α) :
    (sortRange less before limit balanced partitioned xs).Perm xs := by
  fun_induction sortRange less before limit balanced partitioned xs with
  | case1 => exact insertionSort_perm less _
  | case2 => exact heapSort_perm less _
  | case3 _ _ _ _ _ _ _ _ hround => exact perm_of_round hround
  | case4 _ _ _ _ _ _ _ _ _ _ _ hround _ ih => exact (ih.append_left _).trans (perm_of_round hround)
  | case5 _ _ _ _ _ _ _ _ _ pivot _ _ hround _ _ _ ihl ihr =>
    exact (ihl.append (ihr.cons pivot)).trans (perm_of_round hround)

/-- **A range is sorted** if the comparison is an order on its elements and no
element of it is less than the one in front. -/
theorem IsOrderOn.sortRange_pairwise (h : IsOrderOn less S) {limit : Nat}
    (hxs : ∀ x ∈ xs, S x) (hbefore : ∀ y ∈ before, S y) (hbehind : Behind less before xs) :
    (sortRange less before limit balanced partitioned xs).Pairwise fun x y => less y x = false := by
  fun_induction sortRange less before limit balanced partitioned xs with
  | case1 => exact h.insertionSort_pairwise hxs
  | case2 => exact h.heapSort_pairwise hxs
  | case3 _ _ _ _ _ _ _ _ hround => exact h.round_sorted hxs hround
  | case4 before limit balanced partitioned xs _ _ _ pivot same rest hround _ ih =>
    have hmem : ∀ x ∈ pivot :: same ++ rest, x ∈ xs :=
      fun x hx => (perm_of_round hround).mem_iff.mp hx
    obtain ⟨hsame, hrest, y, hy, hpivot⟩ := round_equal hround
    have hS : ∀ x ∈ pivot :: same ++ rest, S x := fun x hx => hxs x (hmem x hx)
    have hSpivot : S pivot := hS pivot (by simp)
    -- the pivot is not greater than the element in front, so nothing is less than it
    have hleast : ∀ x ∈ pivot :: same ++ rest, less x pivot = false := fun x hx =>
      h.trans hSpivot (hbefore y hy) (hS x hx) hpivot (hbehind y hy x (hmem x hx))
    have hequal : ∀ x ∈ pivot :: same, less pivot x = false :=
      List.forall_mem_cons.mpr ⟨h.irrefl hSpivot, hsame⟩
    have hlast : ∀ x ∈ pivot :: same, ∀ z ∈ pivot :: same ++ rest, less z x = false := by
      intro x hx z hz
      exact h.trans (hS x (List.mem_append_left rest hx)) hSpivot (hS z hz) (hequal x hx) (hleast z hz)
    refine List.pairwise_append.mpr ⟨?_, ih (fun x hx => hS x (by simp [hx])) ?_ ?_, ?_⟩
    · rw [List.pairwise_iff_getElem]
      intro i j hi hj _
      exact hlast _ (List.getElem_mem hi) _ (List.mem_append_left rest (List.getElem_mem hj))
    · exact fun x hx => hS x (List.mem_append_left rest (List.mem_of_getLast? hx))
    · exact fun x hx z hz => hlast x (List.mem_of_getLast? hx) z (List.mem_append_right _ hz)
    · intro x hx z hz
      have hz' := (sortRange_perm ..).mem_iff.mp hz
      exact hlast x hx z (List.mem_append_right _ hz')
  | case5 before limit balanced partitioned xs _ _ _ left pivot right already hround _ _ _ ihl ihr =>
    have hmem : ∀ x ∈ left ++ pivot :: right, x ∈ xs :=
      fun x hx => (perm_of_round hround).mem_iff.mp hx
    have hS : ∀ x ∈ left ++ pivot :: right, S x := fun x hx => hxs x (hmem x hx)
    obtain ⟨hleft, hright, -⟩ := round_split hround
    have hSpivot : S pivot := hS pivot (by simp)
    have hSleft : ∀ x ∈ left, S x := fun x hx => hS x (by simp [hx])
    have hSright : ∀ x ∈ right, S x := fun x hx => hS x (by simp [hx])
    refine h.pairwise_split hSpivot ?_ ?_ ?_ ?_ (ihl hSleft hbefore ?_) (ihr hSright ?_ ?_)
    · exact fun x hx => hSleft x ((sortRange_perm ..).mem_iff.mp hx)
    · exact fun x hx => hSright x ((sortRange_perm ..).mem_iff.mp hx)
    · intro x hx
      have hx' := (sortRange_perm ..).mem_iff.mp hx
      exact h.asymm (hSleft x hx') hSpivot (hleft x hx')
    · exact fun x hx => hright x ((sortRange_perm ..).mem_iff.mp hx)
    · exact fun y hy x hx => hbehind y hy x (hmem x (by simp [hx]))
    · rintro y ⟨⟩
      exact hSpivot
    · rintro y ⟨⟩
      exact hright

/-! ### Sorting a list -/

/-- A sorted list has the elements of the list. -/
theorem sort_perm (less : α → α → Bool) (xs : List α) : (sort less xs).Perm xs :=
  sortRange_perm less none _ true true xs

theorem sort_of_few (h : xs.length ≤ 12) : sort less xs = insertionSort less xs := by
  rw [sort, sortRange, if_pos h]

/-- **What is sorted is in order**, if the comparison is one. -/
theorem sort_pairwise (h : IsOrderOn less (· ∈ xs)) :
    (sort less xs).Pairwise fun x y => less y x = false :=
  h.sortRange_pairwise (fun _ hx => hx) (by simp) (by simp [Behind])

/-- Where the elements are in strict order, what is sorted does not depend on
how it was listed before. -/
theorem sort_eq_of_perm {ys : List α} (hperm : ys.Perm xs) (h : IsOrderOn less (· ∈ xs))
    (hanti : ∀ x ∈ xs, ∀ y ∈ xs, less x y = false → less y x = false → x = y) :
    sort less ys = sort less xs := by
  have hsame : (· ∈ ys) = (· ∈ xs) := funext fun x => propext hperm.mem_iff
  have hys : (sort less ys).Pairwise fun x y => less y x = false :=
    sort_pairwise (by rwa [hsame])
  refine List.Perm.eq_of_pairwise (fun x y hx hy hyx hxy => ?_) hys (sort_pairwise h)
    ((sort_perm less ys).trans (hperm.trans (sort_perm less xs).symm))
  exact hanti x (hperm.mem_iff.mp ((sort_perm less ys).mem_iff.mp hx)) y
    ((sort_perm less xs).mem_iff.mp hy) hxy hyx

end OffsetGaps.Sorting
