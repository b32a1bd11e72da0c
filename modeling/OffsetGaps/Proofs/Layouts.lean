/-
# The layout of a set of offsets

`Layout.ofOffsets` either gives a layout that says exactly what the set of
known offsets is (`Layout.Describes`), or names a gap that is too wide. The
entries are the pairs of an element and the distance to the next one, under
keys that no two elements share, so the set can be read off the entries
again (`Layout.recovered`): an element that has no entry of its own, the
largest, is reached from the one below it. Which gap can be too wide is
decided by the anchor: 0 lies between any negative and any positive offset,
so the only gap of 2^63 or more is the one from -2^63 to 0.

Key definitions: `Layout.Describes`, `Layout.recovered`.
Key theorems: `describes_of_ofOffsets`, `Layout.Describes.distance_eq_some_iff`,
`Layout.Describes.known_recovered`, `Layout.Describes.ext`, `wide_iff`,
`ofOffsets_eq_error_iff`.
-/
import OffsetGaps.Proofs.Decimal
import OffsetGaps.Proofs.Landmarks

namespace OffsetGaps

/-- In a list of entries with each key once, a look-up finds the entries. -/
theorem lookup_eq_some_iff_mem {α β : Type} [BEq α] [LawfulBEq α] {k : α} {v : β} :
    ∀ {entries : List (α × β)}, (entries.map Prod.fst).Nodup →
      (entries.lookup k = some v ↔ (k, v) ∈ entries)
  | [], _ => by simp
  | (key, value) :: rest, h => by
    rw [List.map_cons, List.nodup_cons] at h
    rw [List.lookup_cons, List.mem_cons, Prod.mk.injEq]
    by_cases hk : k = key
    · subst hk
      have hnot : (k, v) ∉ rest := fun hm => h.1 (List.mem_map.mpr ⟨(k, v), hm, rfl⟩)
      simp [hnot, eq_comm]
    · have hbeq : (k == key) = false := by simpa using hk
      simp only [hbeq, hk, false_and, false_or]
      exact lookup_eq_some_iff_mem h.2

/-! ### What `Layout.ofOffsets` returns -/

theorem ofOffsets_eq_ok_iff {offsets : List Int64} {l : Layout} :
    Layout.ofOffsets offsets = .ok l ↔
      (∀ a b, (a, b) ∈ adjacent (landmarks offsets) → ¬ b - a < 0) ∧
        l = ⟨(adjacent (landmarks offsets)).map fun p => (Key.ofOffset p.1, p.2 - p.1)⟩ := by
  unfold Layout.ofOffsets
  simp only
  split
  · rename_i a b hfind
    have hneg := List.find?_some hfind
    have hmem := List.mem_of_find?_eq_some hfind
    simp only [reduceCtorEq, false_iff, not_and]
    intro hall
    exact absurd (by simpa using hneg) (hall a b hmem)
  · rename_i hfind
    have hall : ∀ a b, (a, b) ∈ adjacent (landmarks offsets) → ¬ b - a < 0 := by
      intro a b hab
      simpa using List.find?_eq_none.mp hfind (a, b) hab
    rw [Except.ok.injEq]
    exact ⟨fun hl => ⟨hall, hl.symm⟩, fun hl => hl.2.symm⟩

/-- A gap that is refused is a gap between neighbours, and wrapped. -/
theorem ofOffsets_eq_error {offsets : List Int64} {g : GapOverflow}
    (h : Layout.ofOffsets offsets = .error g) :
    (g.lower, g.upper) ∈ adjacent (landmarks offsets) ∧ g.upper - g.lower < 0 := by
  unfold Layout.ofOffsets at h
  simp only at h
  split at h
  · rename_i a b hfind
    cases h
    exact ⟨List.mem_of_find?_eq_some hfind, by simpa using List.find?_some hfind⟩
  · cases h

theorem ofOffsets_congr {xs ys : List Int64} (h : known xs = known ys) :
    Layout.ofOffsets xs = Layout.ofOffsets ys := by
  unfold Layout.ofOffsets
  rw [landmarks_congr h]

namespace Layout

/-- The layout gives each element of `S`, an anchored set of signed 64-bit
numbers, but the largest the distance to the next one, under the element's
key, and nothing else; all these distances fit. -/
structure Describes (l : Layout) (S : Finset ℤ) : Prop where
  anchor : (0 : ℤ) ∈ S
  range : ∀ z ∈ S, -2 ^ 63 ≤ z ∧ z < 2 ^ 63
  nodup : (l.entries.map Prod.fst).Nodup
  mem_iff : ∀ key d, (key, d) ∈ l.entries ↔
    ∃ o : Int64, key = Key.ofOffset o ∧ NextIn S o.toInt (o.toInt + d.toInt)
  fits : ∀ a b, NextIn S a b → b - a < 2 ^ 63
  length : l.entries.length = S.card - 1

end Layout

/-- **A layout describes the set it was made from.** -/
theorem describes_of_ofOffsets {offsets : List Int64} {l : Layout}
    (h : Layout.ofOffsets offsets = .ok l) : l.Describes (known offsets) := by
  obtain ⟨hfit, rfl⟩ := ofOffsets_eq_ok_iff.mp h
  refine
    { anchor := zero_mem_known offsets
      range := fun z hz => bounds_of_mem_known hz
      nodup := ?_
      mem_iff := fun key d => ?_
      fits := fun x y hxy => ?_
      length := by rw [List.length_map, length_adjacent, length_landmarks] }
  · have hfst : (adjacent (landmarks offsets)).map
        (Prod.fst ∘ fun p => (Key.ofOffset p.1, p.2 - p.1)) =
          ((adjacent (landmarks offsets)).map Prod.fst).map Key.ofOffset := by
      rw [List.map_map]; rfl
    rw [List.map_map, hfst, map_fst_adjacent]
    exact ((landmarks_nodup offsets).sublist (List.dropLast_sublist _)).map Key.ofOffset_injective
  · rw [List.mem_map]
    constructor
    · rintro ⟨⟨a, b⟩, hab, he⟩
      obtain ⟨rfl, rfl⟩ := Prod.mk.inj he
      have hnext := mem_adjacent_landmarks.mp hab
      have hsum : a.toInt + (b - a).toInt = b.toInt := by
        rw [toInt_gap hnext.lt (hfit a b hab)]; omega
      exact ⟨a, rfl, by rw [hsum]; exact hnext⟩
    · rintro ⟨o, rfl, hnext⟩
      obtain ⟨b, -, hb⟩ := exists_landmark hnext.right_mem
      rw [← hb] at hnext
      have hmem := mem_adjacent_landmarks.mpr hnext
      refine ⟨(o, b), hmem, ?_⟩
      rw [Prod.mk.injEq]
      refine ⟨rfl, Int64.toInt_inj.mp ?_⟩
      show (b - o).toInt = d.toInt
      rw [toInt_gap hnext.lt (hfit o b hmem), hb]
      omega
  · obtain ⟨a, -, rfl⟩ := exists_landmark hxy.left_mem
    obtain ⟨b, -, rfl⟩ := exists_landmark hxy.right_mem
    have hnot := hfit a b (mem_adjacent_landmarks.mpr hxy)
    rw [gap_neg_iff hxy.lt] at hnot
    omega

namespace Layout.Describes

variable {l m : Layout} {S T : Finset ℤ}

theorem distance_eq_some_iff (h : l.Describes S) {o d : Int64} :
    l.distance o = some d ↔ NextIn S o.toInt (o.toInt + d.toInt) := by
  rw [Layout.distance, lookup_eq_some_iff_mem h.nodup, h.mem_iff]
  constructor
  · rintro ⟨o', hkey, hnext⟩
    rw [Key.ofOffset_injective hkey]
    exact hnext
  · intro hnext
    exact ⟨o, rfl, hnext⟩

theorem exists_distance (h : l.Describes S) {a b : ℤ} (hab : NextIn S a b) :
    ∃ d : Int64, d.toInt = b - a := by
  have hfit := h.fits a b hab
  have hlt := hab.lt
  exact ⟨Int64.ofInt (b - a), Int64.toInt_ofInt_of_le (by omega) hfit⟩

/-- Exactly the elements with one above them have a distance. -/
theorem isSome_distance_iff (h : l.Describes S) {o : Int64} :
    (l.distance o).isSome ↔ o.toInt ∈ S ∧ ∃ c ∈ S, o.toInt < c := by
  rw [Option.isSome_iff_exists]
  constructor
  · rintro ⟨d, hd⟩
    have hnext := h.distance_eq_some_iff.mp hd
    exact ⟨hnext.left_mem, _, hnext.right_mem, hnext.lt⟩
  · rintro ⟨ho, c, hc, hoc⟩
    obtain ⟨b, hb⟩ := exists_nextIn ho hc hoc
    obtain ⟨d, hd⟩ := h.exists_distance hb
    have hsum : o.toInt + d.toInt = b := by omega
    exact ⟨d, h.distance_eq_some_iff.mpr (by rw [hsum]; exact hb)⟩

end Layout.Describes

/-! ### Reading the set off the entries -/

/-- The offsets that a layout speaks of: the anchor, and both ends of every
gap. -/
def Layout.recovered (l : Layout) : List Int64 :=
  0 :: l.entries.flatMap fun e =>
    match Key.read e.1 with
    | .ok o => [o, o + e.2]
    | .error _ => []

namespace Layout.Describes

variable {l m : Layout} {S T : Finset ℤ}

/-- The upper end of a gap is found without wrapping. -/
theorem toInt_add (h : l.Describes S) {o d : Int64}
    (hnext : NextIn S o.toInt (o.toInt + d.toInt)) : (o + d).toInt = o.toInt + d.toInt := by
  obtain ⟨hlow, hhigh⟩ := h.range _ hnext.right_mem
  rw [Int64.toInt_add]
  exact Int.bmod_eq_of_le (by omega) (by omega)

theorem read_entry (h : l.Describes S) {key : String} {d : Int64} (he : (key, d) ∈ l.entries) :
    ∃ o : Int64, Key.read key = .ok o ∧ NextIn S o.toInt (o.toInt + d.toInt) := by
  obtain ⟨o, rfl, hnext⟩ := (h.mem_iff key d).mp he
  exact ⟨o, Key.read_ofOffset o, hnext⟩

/-- Both ends of a gap are recovered from its entry. -/
theorem recovered_of_nextIn (h : l.Describes S) {o x : Int64} (hnext : NextIn S o.toInt x.toInt) :
    o ∈ l.recovered ∧ x ∈ l.recovered := by
  obtain ⟨d, hd⟩ := h.exists_distance hnext
  have hsum : o.toInt + d.toInt = x.toInt := by omega
  have hnext' : NextIn S o.toInt (o.toInt + d.toInt) := by rw [hsum]; exact hnext
  have hx : o + d = x := Int64.toInt_inj.mp (by rw [h.toInt_add hnext', hsum])
  have he : (Key.ofOffset o, d) ∈ l.entries := (h.mem_iff _ _).mpr ⟨o, rfl, hnext'⟩
  have hboth : ∀ y ∈ [o, o + d], y ∈ l.recovered := fun y hy =>
    List.mem_cons_of_mem _ (List.mem_flatMap.mpr ⟨_, he, by rw [Key.read_ofOffset]; exact hy⟩)
  exact ⟨hboth o (by simp), hboth x (by simp [hx])⟩

/-- **The layout keeps the whole set.** A negative element has an entry of
its own, since the anchor lies above it; a positive one, the largest
included, ends the gap of the element below it. -/
theorem mem_recovered (h : l.Describes S) {x : Int64} : x ∈ l.recovered ↔ x.toInt ∈ S := by
  constructor
  · intro hx
    rcases List.mem_cons.mp hx with rfl | hx
    · exact h.anchor
    · obtain ⟨⟨key, d⟩, he, hx⟩ := List.mem_flatMap.mp hx
      obtain ⟨o, hread, hnext⟩ := h.read_entry he
      simp only [hread, List.mem_cons, List.not_mem_nil, or_false] at hx
      rcases hx with rfl | rfl
      · exact hnext.left_mem
      · rw [h.toInt_add hnext]
        exact hnext.right_mem
  · intro hx
    rcases lt_trichotomy x.toInt 0 with hneg | hzero | hpos
    · obtain ⟨b, hb⟩ := exists_nextIn hx h.anchor hneg
      obtain ⟨hlow, hhigh⟩ := h.range b hb.right_mem
      rw [← Int64.toInt_ofInt_of_le hlow hhigh] at hb
      exact (h.recovered_of_nextIn hb).1
    · rw [show x = 0 from Int64.toInt_inj.mp (by simpa using hzero)]
      exact List.mem_cons_self
    · obtain ⟨a, ha⟩ := exists_nextIn_of_lt hx h.anchor hpos
      obtain ⟨hlow, hhigh⟩ := h.range a ha.left_mem
      rw [← Int64.toInt_ofInt_of_le hlow hhigh] at ha
      exact (h.recovered_of_nextIn ha).2

theorem known_recovered (h : l.Describes S) : known l.recovered = S := by
  ext z
  constructor
  · intro hz
    obtain ⟨o, ho, rfl⟩ := exists_landmark hz
    rcases toInt_mem_known.mp (mem_landmarks.mp ho) with rfl | ho
    · exact h.anchor
    · exact h.mem_recovered.mp ho
  · intro hz
    obtain ⟨hlow, hhigh⟩ := h.range z hz
    rw [← Int64.toInt_ofInt_of_le hlow hhigh] at hz ⊢
    exact toInt_mem_known.mpr (Or.inr (h.mem_recovered.mpr hz))

/-- Layouts that agree as maps describe the same set. -/
theorem ext (h : l.Describes S) (h' : m.Describes T)
    (hsame : ∀ key, l.entries.lookup key = m.entries.lookup key) : S = T := by
  have hmem : ∀ e, e ∈ l.entries ↔ e ∈ m.entries := by
    rintro ⟨key, d⟩
    rw [← lookup_eq_some_iff_mem h.nodup, hsame, lookup_eq_some_iff_mem h'.nodup]
  rw [← h.known_recovered, ← h'.known_recovered]
  apply known_congr
  intro x
  simp only [Layout.recovered, List.mem_cons, List.mem_flatMap, hmem]

end Layout.Describes

/-! ### The one gap that can be too wide -/

/-- In an anchored set of signed 64-bit numbers, the only gap that no signed
64-bit distance measures leads from the least number to the anchor. -/
theorem wide_iff {S : Finset ℤ} (hzero : (0 : ℤ) ∈ S) (hrange : ∀ z ∈ S, -2 ^ 63 ≤ z ∧ z < 2 ^ 63)
    {a b : ℤ} (h : NextIn S a b) : 2 ^ 63 - 1 < b - a ↔ a = -2 ^ 63 ∧ b = 0 := by
  obtain ⟨hlow, -⟩ := hrange a h.left_mem
  obtain ⟨-, hhigh⟩ := hrange b h.right_mem
  by_cases ha : a < 0
  · have hb := h.least hzero ha
    omega
  · omega

theorem nextIn_least_zero_iff {offsets : List Int64} :
    NextIn (known offsets) (-2 ^ 63) 0 ↔
      Int64.minValue ∈ offsets ∧ ∀ v ∈ offsets, ¬ (-2 ^ 63 < v.toInt ∧ v.toInt < 0) := by
  have hmin : Int64.minValue.toInt = -2 ^ 63 := Int64.toInt_minValue
  constructor
  · intro h
    have hmem := h.left_mem
    rw [← hmin, toInt_mem_known] at hmem
    refine ⟨hmem.resolve_left (by decide), fun v hv ⟨hlow, hneg⟩ => ?_⟩
    have := h.least (toInt_mem_known.mpr (Or.inr hv)) hlow
    omega
  · rintro ⟨hmem, hnone⟩
    refine ⟨hmin ▸ toInt_mem_known.mpr (Or.inr hmem), ⟨zero_mem_known offsets, by decide⟩, ?_⟩
    rintro z ⟨hz, hlow⟩
    obtain ⟨v, hv, rfl⟩ := exists_landmark hz
    rcases toInt_mem_known.mp (mem_landmarks.mp hv) with rfl | hv
    · exact le_rfl
    · by_contra hneg
      exact hnone v hv ⟨hlow, not_le.mp hneg⟩

/-- A stream is refused exactly for the gap from the least number to the
anchor. -/
theorem ofOffsets_eq_error_iff {offsets : List Int64} {g : GapOverflow} :
    Layout.ofOffsets offsets = .error g ↔
      g = ⟨Int64.minValue, 0⟩ ∧ NextIn (known offsets) (-2 ^ 63) 0 := by
  have hmin : Int64.minValue.toInt = -2 ^ 63 := Int64.toInt_minValue
  have hanchor := zero_mem_known offsets
  have hrange : ∀ z ∈ known offsets, -2 ^ 63 ≤ z ∧ z < 2 ^ 63 := fun z hz => bounds_of_mem_known hz
  have hforced : ∀ {g}, Layout.ofOffsets offsets = .error g →
      g = ⟨Int64.minValue, 0⟩ ∧ NextIn (known offsets) (-2 ^ 63) 0 := by
    intro g h
    obtain ⟨hadj, hneg⟩ := ofOffsets_eq_error h
    have hnext := mem_adjacent_landmarks.mp hadj
    obtain ⟨hlow, hup⟩ := (wide_iff hanchor hrange hnext).mp ((gap_neg_iff hnext.lt).mp hneg)
    obtain ⟨lower, upper⟩ := g
    have hl : lower = Int64.minValue := Int64.toInt_inj.mp (hlow.trans hmin.symm)
    have hu : upper = 0 := Int64.toInt_inj.mp (by simpa using hup)
    exact ⟨by rw [hl, hu], by rw [← hlow, ← hup]; exact hnext⟩
  refine ⟨hforced, ?_⟩
  rintro ⟨rfl, hnext⟩
  cases hres : Layout.ofOffsets offsets with
  | error g => rw [(hforced hres).1]
  | ok l =>
    have := (describes_of_ofOffsets hres).fits _ _ hnext
    omega

end OffsetGaps
