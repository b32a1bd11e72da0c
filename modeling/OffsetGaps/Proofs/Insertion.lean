/-
# One more offset

An offset is put into a stream, at any place. What it does to the layout is
local. If it is known already, it does nothing. Above all known offsets it
ends a gap of the largest one, below all of them it begins a gap to the
smallest one, and between two neighbours it cuts the gap between them in two.
Every other entry stays.

The change is first said of the set: which elements are next to each other
once there is one more (`nextIn_insert_right`, `nextIn_insert_left`,
`nextIn_insert_of_ne`). It is then read off the entries: if two sets have the
same neighbours but for some gaps, the layout of the second is that of the
first with the entries of these gaps put in (`Layout.Revised`).

Key definitions: `Layout.gapEntries`, `Layout.Revised`.
Key theorems: `nextIn_insert_of_ne`, `known_insert`,
`Layout.Describes.revised`, `Accumulator.insertion_local`.
-/
import OffsetGaps.Proofs.Accumulator

namespace OffsetGaps

/-! ### The neighbours in a larger set -/

section Neighbours

variable {S : Finset ℤ} {v a b p q : ℤ}

/-- The new element is next to the greatest element below it. -/
theorem nextIn_insert_right (hv : v ∉ S) :
    NextIn (insert v S) a v ↔ IsGreatest {x | x ∈ S ∧ x < v} a := by
  constructor
  · intro h
    have hlt := h.lt
    have ha : a ∈ S := (Finset.mem_insert.mp h.left_mem).resolve_left (by omega)
    refine ⟨⟨ha, hlt⟩, fun x ⟨hx, hxv⟩ => ?_⟩
    by_contra hax
    have hle := h.least (Finset.mem_insert_of_mem hx) (not_le.mp hax)
    omega
  · rintro ⟨⟨ha, hlt⟩, hgreatest⟩
    refine ⟨Finset.mem_insert_of_mem ha, ⟨Finset.mem_insert_self v S, hlt⟩, fun x ⟨hx, hax⟩ => ?_⟩
    rcases Finset.mem_insert.mp hx with rfl | hx
    · exact le_rfl
    · by_contra hvx
      have hle : x ≤ a := hgreatest ⟨hx, not_le.mp hvx⟩
      omega

/-- Next to the new element is the least element above it. -/
theorem nextIn_insert_left (hv : v ∉ S) :
    NextIn (insert v S) v b ↔ IsLeast {x | x ∈ S ∧ v < x} b := by
  constructor
  · intro h
    have hlt := h.lt
    have hb : b ∈ S := (Finset.mem_insert.mp h.right_mem).resolve_left (by omega)
    exact ⟨⟨hb, hlt⟩, fun x ⟨hx, hvx⟩ => h.least (Finset.mem_insert_of_mem hx) hvx⟩
  · rintro ⟨⟨hb, hlt⟩, hleast⟩
    refine ⟨Finset.mem_insert_self v S, ⟨Finset.mem_insert_of_mem hb, hlt⟩, fun x ⟨hx, hvx⟩ => ?_⟩
    rcases Finset.mem_insert.mp hx with rfl | hx
    · exact absurd hvx (lt_irrefl x)
    · exact hleast ⟨hx, hvx⟩

/-- Next to every other element is what was next to it. -/
theorem nextIn_insert_of_ne (hv : v ∉ S) (ha : a ≠ v)
    (hnot : ¬ IsGreatest {x | x ∈ S ∧ x < v} a) : NextIn (insert v S) a b ↔ NextIn S a b := by
  constructor
  · intro h
    have hbv : b ≠ v := by
      rintro rfl
      exact hnot ((nextIn_insert_right hv).mp h)
    have haS : a ∈ S := (Finset.mem_insert.mp h.left_mem).resolve_left ha
    have hbS : b ∈ S := (Finset.mem_insert.mp h.right_mem).resolve_left hbv
    exact ⟨haS, ⟨hbS, h.lt⟩, fun x ⟨hx, hax⟩ => h.least (Finset.mem_insert_of_mem hx) hax⟩
  · intro h
    refine ⟨Finset.mem_insert_of_mem h.left_mem,
      ⟨Finset.mem_insert_of_mem h.right_mem, h.lt⟩, fun x ⟨hx, hax⟩ => ?_⟩
    rcases Finset.mem_insert.mp hx with rfl | hx
    · -- if the new element came before `b`, then `a` would be the greatest below it
      by_contra hxb
      refine hnot ⟨⟨h.left_mem, hax⟩, fun y ⟨hy, hyx⟩ => ?_⟩
      by_contra hay
      have hle := h.least hy (not_le.mp hay)
      omega
    · exact h.least hx hax

/-- Around an element that is missing, its neighbours are next to each
other. -/
theorem nextIn_of_neighbours (hv : v ∉ S) (hp : IsGreatest {x | x ∈ S ∧ x < v} p)
    (hq : IsLeast {x | x ∈ S ∧ v < x} q) : NextIn S p q := by
  obtain ⟨⟨hpS, hpv⟩, hgreatest⟩ := hp
  obtain ⟨⟨hqS, hvq⟩, hleast⟩ := hq
  refine ⟨hpS, ⟨hqS, hpv.trans hvq⟩, fun x ⟨hx, hpx⟩ => ?_⟩
  have hxv : x ≠ v := fun heq => hv (heq ▸ hx)
  rcases lt_or_gt_of_ne hxv with hlt | hgt
  · have hle : x ≤ p := hgreatest ⟨hx, hlt⟩
    omega
  · exact hleast ⟨hx, hgt⟩

end Neighbours

/-- An offset that is neither the new one nor the greatest below it keeps what
is next to it. -/
theorem nextIn_insert_kept {S : Finset ℤ} {o p v : Int64} (hv : v.toInt ∉ S)
    (hp : IsGreatest {x | x ∈ S ∧ x < v.toInt} p.toInt) (hop : o ≠ p) (hov : o ≠ v) (x : ℤ) :
    NextIn (insert v.toInt S) o.toInt x ↔ NextIn S o.toInt x := by
  apply nextIn_insert_of_ne hv
  · exact fun heq => hov (Int64.toInt_inj.mp heq)
  · exact fun ho => hop (Int64.toInt_inj.mp (ho.unique hp))

/-- An offset put into a stream is one known offset more. -/
theorem known_insert (before after : List (Option Int64)) (v : Int64) :
    known (before ++ some v :: after).reduceOption =
      insert v.toInt (known (before ++ after).reduceOption) := by
  ext z
  simp only [known, List.reduceOption_append, List.reduceOption_cons_of_some, List.map_append,
    List.map_cons, Finset.mem_insert, List.mem_toFinset, List.mem_append, List.mem_cons]
  tauto

/-! ### The entries of a larger layout -/

namespace Layout

/-- The entries for gaps that are given by their two ends. -/
def gapEntries (gaps : List (Int64 × Int64)) : List (String × Int64) :=
  gaps.map fun g => (Key.ofOffset g.1, g.2 - g.1)

/-- **One layout revises another in some gaps**: it has the entries of these
gaps, and under every other key the entry of the other layout, or none where
there was none. The distances of the gaps are the true ones. -/
structure Revised (l m : Layout) (gaps : List (Int64 × Int64)) : Prop where
  lookup : ∀ key, m.entries.lookup key = (gapEntries gaps ++ l.entries).lookup key
  unwrapped : ∀ g ∈ gaps, (g.2 - g.1).toInt = g.2.toInt - g.1.toInt

namespace Describes

variable {l m : Layout} {S T : Finset ℤ} {a b : Int64}

theorem lookup_eq_some_iff (h : l.Describes S) {key : String} {d : Int64} :
    l.entries.lookup key = some d ↔
      ∃ o : Int64, key = Key.ofOffset o ∧ NextIn S o.toInt (o.toInt + d.toInt) := by
  rw [lookup_eq_some_iff_mem h.nodup, h.mem_iff]

/-- The wrapped difference of neighbours is the true one. -/
theorem toInt_sub (h : l.Describes S) (hnext : NextIn S a.toInt b.toInt) :
    (b - a).toInt = b.toInt - a.toInt := by
  apply toInt_gap hnext.lt
  rw [gap_neg_iff hnext.lt]
  have hfit := h.fits _ _ hnext
  omega

theorem distance_of_nextIn (h : l.Describes S) (hnext : NextIn S a.toInt b.toInt) :
    l.distance a = some (b - a) := by
  have hsum : a.toInt + (b - a).toInt = b.toInt := by rw [h.toInt_sub hnext]; omega
  exact h.distance_eq_some_iff.mpr (by rw [hsum]; exact hnext)

theorem distance_eq_none (h : l.Describes S) (hlast : a.toInt ∈ S → ∀ x ∈ S, x ≤ a.toInt) :
    l.distance a = none := by
  rw [← Option.not_isSome_iff_eq_none, h.isSome_distance_iff]
  rintro ⟨ha, x, hx, hlt⟩
  exact absurd (hlast ha x hx) (not_le.mpr hlt)

/-- Sets with the same neighbours, but for some gaps of the second, have the
same entries but for those of these gaps. -/
theorem revised (h : l.Describes S) (h' : m.Describes T) {gaps : List (Int64 × Int64)}
    (hgaps : ∀ g ∈ gaps, NextIn T g.1.toInt g.2.toInt)
    (hkept : ∀ o : Int64, o ∉ gaps.map Prod.fst → ∀ x, NextIn T o.toInt x ↔ NextIn S o.toInt x) :
    l.Revised m gaps := by
  refine ⟨fun key => ?_, fun g hg => h'.toInt_sub (hgaps g hg)⟩
  rw [List.lookup_append]
  cases hfound : (gapEntries gaps).lookup key with
  | some d =>
    obtain ⟨before, after, hsplit, -⟩ := List.lookup_eq_some_iff.mp hfound
    have hmem : (key, d) ∈ gapEntries gaps := by rw [hsplit]; simp
    obtain ⟨g, hg, hentry⟩ := List.mem_map.mp hmem
    obtain ⟨rfl, rfl⟩ := Prod.mk.inj hentry
    exact h'.distance_of_nextIn (hgaps g hg)
  | none =>
    rw [Option.none_or]
    apply Option.ext
    intro d
    rw [h'.lookup_eq_some_iff, h.lookup_eq_some_iff]
    refine exists_congr fun o => and_congr_right fun hkey => hkept o ?_ _
    -- the key of a gap's lower end would have been found
    intro hmem
    obtain ⟨g, hg, rfl⟩ := List.mem_map.mp hmem
    have hne := List.lookup_eq_none_iff.mp hfound _ (List.mem_map.mpr ⟨g, hg, rfl⟩)
    simp [hkey] at hne

/-! One case for each place that a new element can have. -/

section Places

variable {v p q : Int64} (h : l.Describes S) (h' : m.Describes (insert v.toInt S))
include h h'

theorem revised_above (habove : ∀ x ∈ S, x < v.toInt)
    (hp : IsGreatest {x | x ∈ S ∧ x < v.toInt} p.toInt) :
    l.distance p = none ∧ l.Revised m [(p, v)] := by
  have hv : v.toInt ∉ S := fun hmem => absurd (habove _ hmem) (lt_irrefl _)
  refine ⟨h.distance_eq_none fun _ x hx => ?_, h.revised h' ?_ fun o ho x => ?_⟩
  · exact hp.2 ⟨hx, habove x hx⟩
  · simpa using (nextIn_insert_right hv).mpr hp
  · have hop : o ≠ p := by simpa using ho
    by_cases hov : o = v
    · -- nothing is next to the new element, which was not there before
      subst hov
      rw [nextIn_insert_left hv]
      constructor
      · rintro ⟨⟨hx, hlt⟩, -⟩
        exact absurd (habove x hx) (lt_asymm hlt)
      · intro hnext
        exact absurd hnext.left_mem hv
    · exact nextIn_insert_kept hv hp hop hov x

theorem revised_below (hbelow : ∀ x ∈ S, v.toInt < x)
    (hq : IsLeast {x | x ∈ S ∧ v.toInt < x} q.toInt) :
    l.distance v = none ∧ l.Revised m [(v, q)] := by
  have hv : v.toInt ∉ S := fun hmem => absurd (hbelow _ hmem) (lt_irrefl _)
  refine ⟨h.distance_eq_none fun hmem => absurd hmem hv, h.revised h' ?_ fun o ho x => ?_⟩
  · simpa using (nextIn_insert_left hv).mpr hq
  · have hov : o ≠ v := by simpa using ho
    refine nextIn_insert_of_ne hv (fun heq => hov (Int64.toInt_inj.mp heq)) ?_
    rintro ⟨⟨ho, hlt⟩, -⟩
    exact absurd (hbelow _ ho) (lt_asymm hlt)

theorem revised_between (hv : v.toInt ∉ S) (hp : IsGreatest {x | x ∈ S ∧ x < v.toInt} p.toInt)
    (hq : IsLeast {x | x ∈ S ∧ v.toInt < x} q.toInt) :
    l.distance v = none ∧ l.distance p = some (q - p) ∧
      (q - p).toInt = (v - p).toInt + (q - v).toInt ∧ l.Revised m [(p, v), (v, q)] := by
  have hold := nextIn_of_neighbours hv hp hq
  have hlow := (nextIn_insert_right hv).mpr hp
  have hhigh := (nextIn_insert_left hv).mpr hq
  refine ⟨h.distance_eq_none fun hmem => absurd hmem hv, h.distance_of_nextIn hold, ?_,
    h.revised h' ?_ fun o ho x => ?_⟩
  · rw [h.toInt_sub hold, h'.toInt_sub hlow, h'.toInt_sub hhigh]
    omega
  · simp only [List.mem_cons, List.not_mem_nil, or_false]
    rintro g (rfl | rfl)
    · exact hlow
    · exact hhigh
  · obtain ⟨hop, hov⟩ : o ≠ p ∧ o ≠ v := by simpa using ho
    exact nextIn_insert_kept hv hp hop hov x

end Places
end Describes
end Layout

namespace Accumulator

/-- **One more offset changes the layout next to it only.** An offset `v` is
put into a stream, at any place, and both streams have layouts. If `v` was
known, the layout is the same. If it lies above all known offsets, the largest
of them, which had no entry, gets one with the distance to `v`, and nothing
else changes. If it lies below all of them, `v` gets an entry with the distance
to the smallest, and nothing else changes. Otherwise it lies between two
neighbours `p` and `q`: `p` has now the distance to `v`, `v` gets an entry with
the distance to `q`, the two distances add up to the old one of `p`, and nothing
else changes. -/
theorem insertion_local (before after : List (Option Int64)) (v : Int64) {l m : Layout}
    (hl : collect (before ++ after) = .ok l) (hm : collect (before ++ some v :: after) = .ok m) :
    let S := known (before ++ after).reduceOption
    let top := S.max' (known_nonempty _)
    let bottom := S.min' (known_nonempty _)
    (v.toInt ∈ S → m = l) ∧
    (top < v.toInt → ∃ p : Int64, p.toInt = top ∧ l.distance p = none ∧ l.Revised m [(p, v)]) ∧
    (v.toInt < bottom → ∃ q : Int64, q.toInt = bottom ∧ l.distance v = none ∧
      l.Revised m [(v, q)]) ∧
    (v.toInt ∉ S → bottom < v.toInt → v.toInt < top →
      ∃ p q : Int64, IsGreatest {x | x ∈ S ∧ x < v.toInt} p.toInt ∧
        IsLeast {x | x ∈ S ∧ v.toInt < x} q.toInt ∧
        l.distance v = none ∧ l.distance p = some (q - p) ∧
        (q - p).toInt = (v - p).toInt + (q - v).toInt ∧ l.Revised m [(p, v), (v, q)]) := by
  intro S top bottom
  have hlS : l.Describes S := describes_of_collect hl
  have hmS : m.Describes (insert v.toInt S) := by
    rw [← known_insert]
    exact describes_of_collect hm
  have htop : IsGreatest (S : Set ℤ) top := S.isGreatest_max' _
  have hbottom : IsLeast (S : Set ℤ) bottom := S.isLeast_min' _
  refine ⟨fun hv => ?_, fun habove => ?_, fun hbelow => ?_, fun hv hlow hhigh => ?_⟩
  · have hsame : known (before ++ some v :: after).reduceOption = S := by
      rw [known_insert, Finset.insert_eq_of_mem hv]
    rw [collect_congr hsame, hl] at hm
    exact (Except.ok.inj hm).symm
  · obtain ⟨p, -, hp⟩ := exists_landmark htop.1
    have hgreatest : IsGreatest {x | x ∈ S ∧ x < v.toInt} p.toInt := by
      rw [hp]
      exact ⟨⟨htop.1, habove⟩, fun x hx => htop.2 hx.1⟩
    exact ⟨p, hp, hlS.revised_above hmS (fun x hx => lt_of_le_of_lt (htop.2 hx) habove) hgreatest⟩
  · obtain ⟨q, -, hq⟩ := exists_landmark hbottom.1
    have hleast : IsLeast {x | x ∈ S ∧ v.toInt < x} q.toInt := by
      rw [hq]
      exact ⟨⟨hbottom.1, hbelow⟩, fun x hx => hbottom.2 hx.1⟩
    exact ⟨q, hq, hlS.revised_below hmS (fun x hx => lt_of_lt_of_le hbelow (hbottom.2 hx)) hleast⟩
  · -- in the larger set `v` has a neighbour on either side
    have hmem := Finset.mem_insert_self v.toInt S
    obtain ⟨a, ha⟩ := exists_nextIn_of_lt hmem (Finset.mem_insert_of_mem hbottom.1) hlow
    obtain ⟨b, hb⟩ := exists_nextIn hmem (Finset.mem_insert_of_mem htop.1) hhigh
    have hgreatest := (nextIn_insert_right hv).mp ha
    have hleast := (nextIn_insert_left hv).mp hb
    obtain ⟨p, -, rfl⟩ := exists_landmark hgreatest.1.1
    obtain ⟨q, -, rfl⟩ := exists_landmark hleast.1.1
    exact ⟨p, q, hgreatest, hleast, hlS.revised_between hmS hv hgreatest hleast⟩

/-- A known offset once more, one above all of them, one below all of them
and one between two of them. -/
theorem insertion_local_at_each_place :
    ∃ l m₁ m₂ m₃ : Layout,
      collect [some 16, none, some (-8)] = .ok l ∧
      collect [some 16, none, some (-8), some 40] = .ok m₁ ∧
      collect [some (-9), some 16, none, some (-8)] = .ok m₂ ∧
      collect [some 16, some 4, none, some (-8)] = .ok m₃ ∧
      collect [some 16, none, some 0, some (-8)] = .ok l ∧
      (∃ p : Int64, p.toInt = 16 ∧ l.distance p = none ∧ l.Revised m₁ [(p, 40)]) ∧
      (∃ q : Int64, q.toInt = -8 ∧ l.distance (-9) = none ∧ l.Revised m₂ [(-9, q)]) ∧
      ∃ p q : Int64, l.distance 4 = none ∧ l.distance p = some (q - p) ∧
        (q - p).toInt = (4 - p).toInt + (q - 4).toInt ∧ l.Revised m₃ [(p, 4), (4, q)] := by
  have hl : collect [some 16, none, some (-8)] = .ok ⟨[("@-8", 8), ("@0", 16)]⟩ := by cbv
  have h₁ : collect [some 16, none, some (-8), some 40] =
      .ok ⟨[("@-8", 8), ("@0", 16), ("@16", 24)]⟩ := by cbv
  have h₂ : collect [some (-9), some 16, none, some (-8)] =
      .ok ⟨[("@-9", 1), ("@-8", 8), ("@0", 16)]⟩ := by cbv
  have h₃ : collect [some 16, some 4, none, some (-8)] =
      .ok ⟨[("@-8", 8), ("@0", 4), ("@4", 12)]⟩ := by cbv
  obtain ⟨m, hm⟩ : ∃ m, collect [some 16, none, some 0, some (-8)] = .ok m := ⟨_, by cbv⟩
  have hsame := (insertion_local [some 16, none] [some (-8)] 0 hl hm).1 (by decide)
  obtain ⟨p, hp, habove⟩ :=
    (insertion_local [some 16, none, some (-8)] [] 40 hl h₁).2.1 (by decide)
  obtain ⟨q, hq, hbelow⟩ :=
    (insertion_local [] [some 16, none, some (-8)] (-9) hl h₂).2.2.1 (by decide)
  obtain ⟨a, b, -, -, hbetween⟩ :=
    (insertion_local [some 16] [none, some (-8)] 4 hl h₃).2.2.2 (by decide) (by decide) (by decide)
  rw [hsame] at hm
  exact ⟨_, _, _, _, hl, h₁, h₂, h₃, hm, ⟨p, hp.trans (by decide), habove⟩,
    ⟨q, hq.trans (by decide), hbelow⟩, a, b, hbetween⟩

end Accumulator
end OffsetGaps
