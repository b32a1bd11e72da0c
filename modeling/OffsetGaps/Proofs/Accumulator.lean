/-
# The life of an accumulator

An accumulator is called any number of times, in any order, with offsets,
nulls and requests for the layout. Until the first request for the layout it
holds what it was given; that request is answered with the layout of the
set of known offsets, or with the one gap that can be too wide; from then on
every call is refused and changes nothing.

The answer depends on the set of known offsets only, and keeps it: two
streams have the same layout exactly when they have the same known offsets.

Key definitions: `Accumulator.Request`, `Accumulator.after`,
`Accumulator.offered`, `Accumulator.collect`.
Key theorems: `Accumulator.every_call_answered`,
`Accumulator.overflow_iff_least_before_anchor`,
`Accumulator.layout_keeps_known_offsets`.
-/
import Mathlib
import OffsetGaps.Layout.Accumulator
import OffsetGaps.Proofs.Layouts

namespace OffsetGaps
namespace Accumulator

inductive Request where
  /-- Take an offset, or a null. -/
  | add (value : Option Int64)
  /-- Give the layout. -/
  | finalize
deriving DecidableEq, Repr

def serve (a : Accumulator) : Request → Accumulator × Except AccumulatorError (Option Layout)
  | .add value => ((a.add value).1, (a.add value).2.map fun _ => none)
  | .finalize => (a.finalize.1, a.finalize.2.map some)

def after (a : Accumulator) (requests : List Request) : Accumulator :=
  requests.foldl (fun a r => (a.serve r).1) a

/-- The offsets given before the first request for the layout. -/
def offered : List Request → List Int64
  | [] => []
  | .add (some o) :: rest => o :: offered rest
  | .add none :: rest => offered rest
  | .finalize :: _ => []

/-- The answer to the first request for the layout after a stream of offsets
and nulls. -/
def collect (stream : List (Option Int64)) : Except AccumulatorError Layout :=
  (empty.after (stream.map .add)).finalize.2

/-! ### What the calls leave behind -/

theorem after_finalized : ∀ requests : List Request, finalized.after requests = finalized
  | [] => rfl
  | .add _ :: rest => after_finalized rest
  | .finalize :: rest => after_finalized rest

/-- The first request for the layout ends the collection for good. -/
theorem after_of_mem : ∀ {requests : List Request} (a : Accumulator), Request.finalize ∈ requests →
    a.after requests = finalized
  | .finalize :: rest, .collecting _, _ => after_finalized rest
  | .finalize :: rest, .finalized, _ => after_finalized rest
  | .add value :: _, a, h => by
    rcases List.mem_cons.mp h with h | h
    · cases h
    · exact after_of_mem (a.add value).1 h

/-- Before that, the accumulator holds what it was given, the latest first. -/
theorem after_of_not_mem : ∀ {requests : List Request} (taken : List Int64),
    Request.finalize ∉ requests →
      (collecting taken).after requests = collecting ((offered requests).reverse ++ taken)
  | [], _, _ => rfl
  | .finalize :: _, _, h => absurd List.mem_cons_self h
  | .add none :: rest, taken, h => by
    show (collecting taken).after rest = _
    rw [after_of_not_mem taken fun hm => h (List.mem_cons_of_mem _ hm)]
    rfl
  | .add (some o) :: rest, taken, h => by
    show (collecting (o :: taken)).after rest = _
    rw [after_of_not_mem (o :: taken) fun hm => h (List.mem_cons_of_mem _ hm)]
    simp [offered]

theorem empty_after {requests : List Request} (h : Request.finalize ∉ requests) :
    empty.after requests = collecting (offered requests).reverse := by
  rw [empty, after_of_not_mem [] h, List.append_nil]

theorem finalize_collecting (offsets : List Int64) :
    (collecting offsets.reverse).finalize.2 = (Layout.ofOffsets offsets).mapError .overflow := by
  show (Layout.ofOffsets offsets.reverse).mapError AccumulatorError.overflow = _
  rw [ofOffsets_congr (known_congr fun o => List.mem_reverse)]

theorem finalize_not_mem_map (stream : List (Option Int64)) :
    Request.finalize ∉ stream.map Request.add := by simp

theorem offered_map_add : ∀ stream : List (Option Int64),
    offered (stream.map .add) = stream.reduceOption
  | [] => rfl
  | none :: rest => by
    rw [List.reduceOption_cons_of_none]; exact offered_map_add rest
  | some o :: rest => by
    rw [List.reduceOption_cons_of_some, ← offered_map_add rest]; rfl

/-- The answer to a stream is that of the offsets in it. -/
theorem collect_eq (stream : List (Option Int64)) :
    collect stream = (Layout.ofOffsets stream.reduceOption).mapError .overflow := by
  rw [collect, empty_after (finalize_not_mem_map stream), finalize_collecting, offered_map_add]

theorem reduceOption_map_some (offsets : List Int64) : (offsets.map some).reduceOption = offsets := by
  simp [List.reduceOption]

theorem collect_eq_ok_iff {stream : List (Option Int64)} {l : Layout} :
    collect stream = .ok l ↔ Layout.ofOffsets stream.reduceOption = .ok l := by
  rw [collect_eq]
  cases Layout.ofOffsets stream.reduceOption <;> simp [Except.mapError]

theorem collect_eq_overflow_iff {stream : List (Option Int64)} {g : GapOverflow} :
    collect stream = .error (.overflow g) ↔ Layout.ofOffsets stream.reduceOption = .error g := by
  rw [collect_eq]
  cases Layout.ofOffsets stream.reduceOption <;> simp [Except.mapError]

/-! ### Every call of every sequence -/

/-- What a first request for the layout is answered with. -/
theorem serve_finalize {requests : List Request} (h : Request.finalize ∉ requests) :
    ((empty.after requests).serve .finalize).2 =
      ((Layout.ofOffsets (offered requests)).mapError AccumulatorError.overflow).map some := by
  rw [empty_after h]
  show (collecting _).finalize.2.map some = _
  rw [finalize_collecting]

theorem ne_max_iff {S : Finset ℤ} (hS : S.Nonempty) {z : ℤ} (hz : z ∈ S) :
    z ≠ S.max' hS ↔ ∃ c ∈ S, z < c := by
  constructor
  · intro hne
    exact ⟨_, S.max'_mem hS, lt_of_le_of_ne (S.le_max' z hz) hne⟩
  · rintro ⟨c, hc, hzc⟩ rfl
    exact absurd (S.le_max' c hc) (not_le.mpr hzc)

/-- **Every call is answered from the set of known offsets.** After any calls
`before`, with no request for the layout among them, the accumulator has
accepted every offset; a request for the layout is then answered with one
entry for each known offset but the largest, under the offset's key, whose
distance is the true one to the least known offset above, unless some such
distance does not fit. After the first request for the layout, whatever its
answer, every call is refused, and nothing is held any more. -/
theorem every_call_answered (before : List Request) (next : Request) :
    let a := empty.after before
    let S := known (offered before)
    (Request.finalize ∉ before →
      a.size = 1 + (offered before).length ∧ a.isFinalized = false ∧
      (∀ value, next = .add value → (a.serve next).2 = .ok none) ∧
      (next = .finalize →
        (∃ g x y, (a.serve next).2 = .error (.overflow g) ∧ NextIn S x y ∧ 2 ^ 63 ≤ y - x) ∨
        ∃ l : Layout, (a.serve next).2 = .ok (some l) ∧
          l.entries.length = S.card - 1 ∧ (l.entries.map Prod.fst).Nodup ∧
          (∀ e ∈ l.entries, ∃ o : Int64, o.toInt ∈ S ∧ e.1 = Key.ofOffset o) ∧
          ∀ o : Int64,
            ((l.distance o).isSome ↔
              o.toInt ∈ S ∧ o.toInt ≠ S.max' (known_nonempty (offered before))) ∧
            ∀ d, l.distance o = some d →
              0 < d.toInt ∧ ∃ b, IsLeast {x | x ∈ S ∧ o.toInt < x} b ∧ d.toInt = b - o.toInt)) ∧
    (Request.finalize ∈ before → (a.serve next).2 = .error .finalized) ∧
    (Request.finalize ∈ before ∨ next = .finalize →
      (a.serve next).1.size = 0 ∧ (a.serve next).1.isFinalized = true) := by
  intro a S
  refine ⟨fun hnot => ⟨?_, ?_, ?_, ?_⟩, fun hmem => ?_, ?_⟩
  · simp only [a, empty_after hnot, size, List.length_reverse]
    omega
  · simp only [a, empty_after hnot, isFinalized]
  · rintro value rfl
    simp only [a, empty_after hnot]
    cases value <;> rfl
  · rintro rfl
    rw [show (a.serve .finalize).2 = _ from serve_finalize hnot]
    cases hres : Layout.ofOffsets (offered before) with
    | error g =>
      obtain ⟨-, hnext⟩ := ofOffsets_eq_error_iff.mp hres
      exact Or.inl ⟨g, _, _, rfl, hnext, by omega⟩
    | ok l =>
      have hd := describes_of_ofOffsets hres
      refine Or.inr ⟨l, rfl, hd.length, hd.nodup, fun e he => ?_, fun o => ⟨?_, fun d h => ?_⟩⟩
      · obtain ⟨o, hkey, hnext⟩ := (hd.mem_iff e.1 e.2).mp he
        exact ⟨o, hnext.left_mem, hkey⟩
      · rw [hd.isSome_distance_iff]
        exact and_congr_right fun ho => (ne_max_iff _ ho).symm
      · have hnext := hd.distance_eq_some_iff.mp h
        have hlt := hnext.lt
        exact ⟨by omega, _, hnext.2, by omega⟩
  · simp only [a, after_of_mem empty hmem]
    cases next <;> rfl
  · -- either the collection has ended before, or it ends now
    rintro (hmem | rfl)
    · simp only [a, after_of_mem empty hmem]
      cases next <;> exact ⟨rfl, rfl⟩
    · cases a <;> exact ⟨rfl, rfl⟩

/-- An offset given twice is held twice and has one entry; a null is refused
once the layout has been asked for. -/
theorem every_call_answered_mixed :
    (empty.after [.add (some 32), .add none, .add (some (-16)), .add (some 32)]).size = 4 ∧
      (∃ l : Layout, ((empty.after [.add (some 32), .add none, .add (some (-16)),
        .add (some 32)]).serve .finalize).2 = .ok (some l) ∧ l.entries.length = 2) ∧
      ((empty.after [.add (some 32), .finalize]).serve (.add none)).2 = .error .finalized := by
  obtain ⟨hsize, -, -, hlayout⟩ := (every_call_answered
    [.add (some 32), .add none, .add (some (-16)), .add (some 32)] .finalize).1 (by decide)
  have hreply : ((empty.after [.add (some 32), .add none, .add (some (-16)),
      .add (some 32)]).serve .finalize).2 = .ok (some ⟨[("@-16", 16), ("@0", 32)]⟩) := by cbv
  refine ⟨hsize, ?_, (every_call_answered [.add (some 32), .finalize] (.add none)).2.1 (by decide)⟩
  rcases hlayout rfl with ⟨g, _, _, hover, -⟩ | ⟨l, hl, hlen, -⟩
  · rw [hreply] at hover
    cases hover
  · exact ⟨l, hl, hlen.trans (by decide)⟩

/-! ### The streams that are refused -/

theorem exists_overflow_iff (offsets : List Int64) :
    (∃ g, collect (offsets.map some) = .error (.overflow g)) ↔
      Int64.minValue ∈ offsets ∧ ∀ v ∈ offsets, ¬ (-2 ^ 63 < v.toInt ∧ v.toInt < 0) := by
  simp only [collect_eq_overflow_iff, reduceOption_map_some, ofOffsets_eq_error_iff]
  rw [← nextIn_least_zero_iff]
  exact ⟨fun ⟨_, _, h⟩ => h, fun h => ⟨_, rfl, h⟩⟩

/-- **Only the gap from -2^63 to the anchor overflows.** The layout of a
stream is refused exactly when -2^63 is in it and no other negative number
is, and then always with the same text. Otherwise all true gaps fit. The
test on the wrapped difference of neighbours is the test on the true gap.
Streams with the same negative numbers are refused alike, so numbers from 0
up never matter. -/
theorem overflow_iff_least_before_anchor (values : List Int64) :
    let reply : Except AccumulatorError Layout := collect (values.map some)
    ((∃ g, reply = .error (.overflow g)) ↔
      Int64.minValue ∈ values ∧ ∀ v ∈ values, ¬ (-2 ^ 63 < v.toInt ∧ v.toInt < 0)) ∧
    (∀ g, reply = .error (.overflow g) → (AccumulatorError.overflow g).message =
      "from -9223372036854775808 to 0: distance overflows int64") ∧
    ((¬ ∃ g, reply = .error (.overflow g)) →
      (∃ l, reply = .ok l) ∧ ∀ x y, NextIn (known values) x y → y - x ≤ 2 ^ 63 - 1) ∧
    (∀ x y, (x, y) ∈ adjacent (landmarks values) →
      (y - x < 0 ↔ 2 ^ 63 - 1 < y.toInt - x.toInt)) ∧
    ∀ others : List Int64, (∀ v : Int64, v.toInt < 0 → (v ∈ others ↔ v ∈ values)) →
      ((∃ g, collect (others.map some) = .error (.overflow g)) ↔
        ∃ g, reply = .error (.overflow g)) := by
  intro reply
  refine ⟨exists_overflow_iff values, fun g hg => ?_, fun hno => ?_, fun x y hxy => ?_,
    fun others hneg => ?_⟩
  · rw [collect_eq_overflow_iff, ofOffsets_eq_error_iff] at hg
    rw [hg.1]
    rfl
  · cases hres : Layout.ofOffsets values with
    | error g =>
      refine absurd ⟨g, collect_eq_overflow_iff.mpr ?_⟩ hno
      rw [reduceOption_map_some, hres]
    | ok l =>
      refine ⟨⟨l, collect_eq_ok_iff.mpr (by rw [reduceOption_map_some, hres])⟩, fun x y hxy => ?_⟩
      have hfit := (describes_of_ofOffsets hres).fits x y hxy
      omega
  · exact gap_neg_iff (mem_adjacent_landmarks.mp hxy).lt
  · have hbetween : ∀ v : Int64, -2 ^ 63 < v.toInt ∧ v.toInt < 0 → (v ∈ others ↔ v ∈ values) :=
      fun v hv => hneg v hv.2
    rw [exists_overflow_iff, exists_overflow_iff, hneg _ (by decide)]
    refine and_congr_right fun _ => ⟨fun h v hv hb => ?_, fun h v hv hb => ?_⟩
    · exact h v ((hbetween v hb).mpr hv) hb
    · exact h v ((hbetween v hb).mp hv) hb

/-- The largest offset next to the least one does not matter; one more
negative offset lifts the refusal. -/
theorem overflow_iff_least_before_anchor_extremes :
    (∃ g, collect [some Int64.maxValue, some Int64.minValue] = .error (.overflow g)) ∧
      (∃ l, collect [some Int64.minValue, some (-1)] = .ok l) := by
  have hmin : Int64.minValue.toInt = -2 ^ 63 := Int64.toInt_minValue
  have hmax : 0 < Int64.maxValue.toInt := by decide
  have hone : (-1 : Int64).toInt = -1 := by decide
  constructor
  · refine (overflow_iff_least_before_anchor [Int64.maxValue, Int64.minValue]).1.mpr ⟨by decide, ?_⟩
    simp only [List.mem_cons, List.not_mem_nil, or_false]
    rintro v (rfl | rfl) <;> omega
  · refine ((overflow_iff_least_before_anchor [Int64.minValue, -1]).2.2.1 fun h => ?_).1
    have hnone := ((overflow_iff_least_before_anchor [Int64.minValue, -1]).1.mp h).2 (-1) (by decide)
    omega

/-! ### What a layout keeps of a stream -/

theorem collect_congr {xs ys : List (Option Int64)}
    (h : known xs.reduceOption = known ys.reduceOption) : collect xs = collect ys := by
  rw [collect_eq, collect_eq, ofOffsets_congr h]

theorem describes_of_collect {stream : List (Option Int64)} {l : Layout}
    (h : collect stream = .ok l) : l.Describes (known stream.reduceOption) :=
  describes_of_ofOffsets (collect_eq_ok_iff.mp h)

/-- **A layout loses order, repetition and nulls, and nothing else.** Two
streams that have layouts have the same layout, as a list of entries or as a
map, exactly when their known offsets are the same. The known offsets are
the anchor and both ends of the gaps, which are found from the entries by
reading the keys and adding the distances, without wrapping; and every
stream with these known offsets has the layout. -/
theorem layout_keeps_known_offsets {xs ys : List (Option Int64)} {l m : Layout}
    (hx : collect xs = .ok l) (hy : collect ys = .ok m) :
    (l = m ↔ known xs.reduceOption = known ys.reduceOption) ∧
    ((∀ key, l.entries.lookup key = m.entries.lookup key) ↔
      known xs.reduceOption = known ys.reduceOption) ∧
    (∀ e ∈ l.entries, ∃ o, Key.read e.1 = .ok o ∧ (o + e.2).toInt = o.toInt + e.2.toInt) ∧
    known l.recovered = known xs.reduceOption ∧
    ∀ zs : List (Option Int64), known zs.reduceOption = known l.recovered → collect zs = .ok l := by
  have hl := describes_of_collect hx
  have hm := describes_of_collect hy
  have heq : known xs.reduceOption = known ys.reduceOption → l = m := by
    intro h
    rw [collect_congr h, hy] at hx
    exact (Except.ok.inj hx).symm
  have hset : (∀ key, l.entries.lookup key = m.entries.lookup key) →
      known xs.reduceOption = known ys.reduceOption := hl.ext hm
  refine ⟨⟨fun h => hset (by simp [h]), heq⟩, ⟨hset, fun h => by simp [heq h]⟩, fun e he => ?_,
    hl.known_recovered, fun zs hzs => ?_⟩
  · obtain ⟨o, hread, hnext⟩ := hl.read_entry he
    exact ⟨o, hread, hl.toInt_add hnext⟩
  · rw [hl.known_recovered] at hzs
    rw [collect_congr hzs, hx]

/-- Another order of the same offsets, with a repetition, a null and the
anchor, gives the same layout; one offset more gives another. -/
theorem layout_keeps_known_offsets_reordered :
    collect [some 16, some (-8)] = .ok ⟨[("@-8", 8), ("@0", 16)]⟩ ∧
      collect [some (-8), none, some 0, some 16, some (-8)] = .ok ⟨[("@-8", 8), ("@0", 16)]⟩ ∧
      collect [some 16] = .ok ⟨[("@0", 16)]⟩ ∧
      known [16, -8] ≠ known [16] := by
  have hfirst : collect [some 16, some (-8)] = .ok ⟨[("@-8", 8), ("@0", 16)]⟩ := by cbv
  have hother : collect [some 16] = .ok ⟨[("@0", 16)]⟩ := by cbv
  obtain ⟨hiff, -, -, hrec, hagain⟩ := layout_keeps_known_offsets hfirst hother
  refine ⟨hfirst, hagain _ ?_, hother, fun h => ?_⟩
  · rw [hrec]
    decide
  · exact absurd (hiff.mpr h) (by decide)

end Accumulator
end OffsetGaps
