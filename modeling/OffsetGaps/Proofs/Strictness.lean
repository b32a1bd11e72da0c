/-
# A strict instance does not fail late

A strict offset map refuses negative offsets row by row, and what it has
accepted then always has a layout. The one gap that can be too wide leads
from -2^63 to the anchor, and -2^63 is never accepted. All known offsets lie
from the anchor up, so the layout has no key of a negative offset, and its
span, the largest known offset less the smallest, is the largest accepted
value itself.

What an instance has accepted is told by its own answers
(`Kernel.accepted`): the integers of the rows that it answered with
success. To leave out the rows of negative integers beforehand comes to the
same as to have them refused, so a strict instance and one that is not give
the same layout on such rows.

Key definitions: `largest`, `OffsetMap.bound`, `Kernel.accepted`.
Key theorems: `exists_layout_of_nonneg`, `width_eq_largest`,
`OffsetMap.accepted_rows`, `OffsetMap.brought_of_kept`,
`OffsetMap.strict_result_succeeds`.
-/
import OffsetGaps.Proofs.Exchanges
import OffsetGaps.Proofs.Extents
import OffsetGaps.Proofs.Rows

namespace OffsetGaps

/-! ### Offsets that are not negative -/

/-- The largest of some offsets, or 0 if there are none. -/
def largest (offsets : List Int64) : ℤ := (offsets.map Int64.toInt).max?.getD 0

theorem largest_mem_known (offsets : List Int64) : largest offsets ∈ known offsets := by
  unfold largest
  cases hmax : (offsets.map Int64.toInt).max? with
  | none => exact zero_mem_known offsets
  | some m => exact Finset.mem_insert_of_mem (List.mem_toFinset.mpr (List.max?_mem hmax))

theorem le_largest {offsets : List Int64} {n : Int64} (hn : n ∈ offsets) :
    n.toInt ≤ largest offsets := by
  have hmem : n.toInt ∈ offsets.map Int64.toInt := List.mem_map_of_mem hn
  unfold largest
  cases hmax : (offsets.map Int64.toInt).max? with
  | none =>
    rw [List.max?_eq_none_iff.mp hmax] at hmem
    cases hmem
  | some m => exact (List.max?_eq_some_iff.mp hmax).2 _ hmem

/-- A known offset is the anchor or was given. -/
theorem mem_known_cases {offsets : List Int64} {z : ℤ} (hz : z ∈ known offsets) :
    z = 0 ∨ ∃ n ∈ offsets, n.toInt = z := by
  rcases Finset.mem_insert.mp hz with hzero | hgiven
  · exact Or.inl hzero
  · exact Or.inr (List.mem_map.mp (List.mem_toFinset.mp hgiven))

section Nonnegative

variable {offsets : List Int64} (hpos : ∀ n ∈ offsets, 0 ≤ n.toInt)
include hpos

theorem nonneg_of_mem_known {z : ℤ} (hz : z ∈ known offsets) : 0 ≤ z := by
  rcases mem_known_cases hz with rfl | ⟨n, hn, rfl⟩
  · exact le_rfl
  · exact hpos n hn

theorem exists_layout_of_nonneg : ∃ l, Layout.ofOffsets offsets = .ok l := by
  cases hlayout : Layout.ofOffsets offsets with
  | ok l => exact ⟨l, rfl⟩
  | error gap =>
    obtain ⟨-, hnext⟩ := ofOffsets_eq_error_iff.mp hlayout
    have hlow := nonneg_of_mem_known hpos hnext.left_mem
    omega

/-- The known offsets reach from the anchor to the largest. -/
theorem width_eq_largest : width offsets = largest offsets := by
  have hlow := nonneg_of_mem_known hpos (largest_mem_known offsets)
  have hmin : (known offsets).min' (known_nonempty offsets) = 0 := by
    rw [Finset.min'_eq_iff]
    exact ⟨zero_mem_known offsets, fun z hz => nonneg_of_mem_known hpos hz⟩
  have hmax : (known offsets).max' (known_nonempty offsets) = largest offsets := by
    rw [Finset.max'_eq_iff]
    refine ⟨largest_mem_known offsets, fun z hz => ?_⟩
    rcases mem_known_cases hz with rfl | ⟨n, hn, rfl⟩
    · exact hlow
    · exact le_largest hn
  rw [width, hmin, hmax, sub_zero]

theorem span_eq_largest {l : Layout} (hl : Layout.ofOffsets offsets = .ok l) :
    l.span.toInt = largest offsets := by
  obtain ⟨-, hhigh⟩ := bounds_of_mem_known (largest_mem_known offsets)
  have hlow := nonneg_of_mem_known hpos (largest_mem_known offsets)
  rw [span_of_ofOffsets hl, width_eq_largest hpos]
  exact Int64.toInt_ofInt_of_le (by omega) hhigh

theorem key_of_nonneg {l : Layout} (hl : Layout.ofOffsets offsets = .ok l) :
    ∀ e ∈ l.entries, ∃ o : Int64, 0 ≤ o.toInt ∧ e.1 = Key.ofOffset o := by
  rintro ⟨key, d⟩ he
  obtain ⟨o, hkey, hnext⟩ := ((describes_of_ofOffsets hl).mem_iff key d).mp he
  exact ⟨o, nonneg_of_mem_known hpos hnext.left_mem, hkey⟩

end Nonnegative

/-- The anchor has an entry exactly if an offset lies above it. -/
theorem isSome_distance_zero_iff {offsets : List Int64} {l : Layout}
    (hl : Layout.ofOffsets offsets = .ok l) :
    (l.distance 0).isSome ↔ ∃ n ∈ offsets, 0 < n.toInt := by
  rw [(describes_of_ofOffsets hl).isSome_distance_iff, Int64.toInt_zero]
  constructor
  · rintro ⟨-, c, hc, hlt⟩
    rcases mem_known_cases hc with rfl | ⟨n, hn, rfl⟩
    · exact absurd hlt (lt_irrefl 0)
    · exact ⟨n, hn, hlt⟩
  · rintro ⟨n, hn, hlt⟩
    exact ⟨zero_mem_known offsets, n.toInt, toInt_mem_known.mpr (Or.inr hn), hlt⟩

/-! ### What an instance accepts -/

namespace OffsetMap

/-- The integer that a row binds to: the row has one argument, and the
parameter takes it as this integer. -/
def bound : List Value → Option Int64
  | [v] => (param.bindInteger v).toOption.join
  | _ => none

/-- Whether a row binds to a negative integer. -/
def bindsNegative (args : List Value) : Bool := (bound args).any fun n => n.toInt < 0

end OffsetMap

/-- The integers that an instance accepts, given rows in this environment:
those of the rows that it answers with success. -/
def Kernel.accepted {σ : Type} (inst : Kernel σ) : Env σ → List (List Value) → List Int64
  | _, [] => []
  | env, args :: rest =>
    match inst (.update args) env with
    | (env, .value _) => (OffsetMap.bound args).toList ++ Kernel.accepted inst env rest
    | (env, _) => Kernel.accepted inst env rest

namespace OffsetMap

variable {strict : Bool}

/-- What a row brings is what it binds to, unless a strict instance finds it
negative. -/
theorem brought_eq_bound (args : List Value) :
    brought strict args = if (strict && bindsNegative args) = true then none else bound args := by
  by_cases hlen : args.length = 1
  · obtain ⟨v, rfl⟩ := List.length_eq_one_iff.mp hlen
    rcases hbind : param.bindInteger v with e | _ | n <;>
      simp [brought, bindsNegative, bound, hbind, Except.toOption]
  · have hnone : bound args = none := by
      rcases args with _ | ⟨v, _ | ⟨w, rest⟩⟩
      · rfl
      · exact absurd rfl hlen
      · rfl
    have hbrought : brought strict args = none := by
      rw [brought_eq, readRow_of_length hlen]
      rfl
    rw [hnone, hbrought, ite_self]

/-- To leave out the rows of negative integers beforehand comes to the same as
to have them refused. -/
theorem brought_of_kept (rows : List (List Value)) :
    (rows.filter fun args => !bindsNegative args).filterMap (brought false) =
      rows.filterMap (brought true) := by
  rw [List.filterMap_filter]
  refine List.filterMap_congr fun args _ => ?_
  rw [brought_eq_bound, brought_eq_bound]
  cases bindsNegative args <;> rfl

theorem nonneg_of_brought {args : List Value} {n : Int64} (h : brought true args = some n) :
    0 ≤ n.toInt := by
  rw [brought_eq_bound] at h
  split_ifs at h with hneg
  simpa [bindsNegative, h] using hneg

/-- A row that is taken binds to what is read from it. -/
theorem bound_of_readRow {args : List Value} {offset : Option Int64}
    (hrow : readRow strict args = .ok offset) : bound args = offset := by
  have hlen : args.length = 1 := by
    by_contra hlen
    rw [readRow_of_length hlen] at hrow
    cases hrow
  obtain ⟨v, rfl⟩ := List.length_eq_one_iff.mp hlen
  rcases hbind : param.bindInteger v with e | _ | n
  · rw [readRow_of_type hbind] at hrow
    cases hrow
  · rw [readRow_of_null hbind] at hrow
    rw [← Except.ok.inj hrow]
    simp [bound, hbind, Except.toOption]
  · rw [readRow_of_offset hbind] at hrow
    split_ifs at hrow
    rw [← Except.ok.inj hrow]
    simp [bound, hbind, Except.toOption]

/-- **An instance accepts what its rows bring**, as long as it has not been
asked for its layout. -/
theorem accepted_rows (memory : Cells Accumulator) (cancelled : Bool) :
    ∀ (rows : List (List Value)) (taken : List Int64),
      (Cells.kernel (step strict) memory.size).accepted
          ⟨memory.push (.collecting taken), cancelled⟩ rows =
        rows.filterMap (brought strict)
  | [], _ => rfl
  | args :: rest, taken => by
    have ih := accepted_rows memory cancelled rest
    unfold Kernel.accepted
    rw [Cells.kernel_push, List.filterMap_cons, brought_eq]
    cases hrow : readRow strict args with
    | error e =>
      rw [step_update_error hrow]
      exact ih taken
    | ok offset =>
      rw [step_update_ok hrow]
      simp only [bound_of_readRow hrow, ih]
      cases offset <;> rfl

/-! ### The first result -/

theorem layoutOf_reverse (offsets : List Int64) : layoutOf offsets.reverse = layoutOf offsets := by
  unfold layoutOf
  rw [ofOffsets_congr (known_congr fun _ => List.mem_reverse)]

/-- The first result of a fresh instance is the layout of what its rows
bring. -/
theorem result_of_rows (strict cancelled : Bool) (memory : Cells Accumulator)
    (rows : List (List Value)) :
    let inst := (constructor strict memory).1
    (inst .result (inst.after ⟨(constructor strict memory).2, cancelled⟩ (rows.map .update))).2 =
      .ofExcept ((layoutOf (rows.filterMap (brought strict))).map .layout) := by
  intro inst
  have hafter : inst.after ⟨(constructor strict memory).2, cancelled⟩ (rows.map .update) =
      ⟨memory.push (.collecting (rows.filterMap (brought strict)).reverse), cancelled⟩ := by
    have hcell := Cells.after_kernel_push (step strict) memory cancelled (rows.map .update) .empty
    rw [states_rows, collecting_after] at hcell
    exact hcell
  rw [hafter]
  show (Cells.kernel (step strict) memory.size .result _).2 = _
  rw [Cells.kernel_push, step_result, layoutOf_reverse]

/-- **A strict instance does not fail late.** Whatever rows a fresh strict
instance is given, its first result is a layout. Every key in it is that of
an offset which is not negative; its distances add up to the largest accepted
value, 0 if there is none, and so does its span, without wrapping; the anchor
has an entry if and only if a positive value was accepted. An instance that is
not strict gives the same layout if the rows of negative integers are left
out. -/
theorem strict_result_succeeds (cancelled : Bool) (memory : Cells Accumulator)
    (rows : List (List Value)) :
    let inst := (constructor true memory).1
    let fresh : Env (Cells Accumulator) := ⟨(constructor true memory).2, cancelled⟩
    let values := inst.accepted fresh rows
    ∃ l : Layout, (inst .result (inst.after fresh (rows.map .update))).2 = .value (.layout l) ∧
      (∀ e ∈ l.entries, ∃ o : Int64, 0 ≤ o.toInt ∧ e.1 = Key.ofOffset o) ∧
      (l.entries.map fun e => e.2.toInt).sum = largest values ∧ l.span.toInt = largest values ∧
      ((l.distance 0).isSome ↔ ∃ n ∈ values, 0 < n.toInt) ∧
      ∀ (cancelled : Bool) (memory : Cells Accumulator),
        let other := (constructor false memory).1
        let kept := rows.filter fun args => !bindsNegative args
        (other .result (other.after ⟨(constructor false memory).2, cancelled⟩
          (kept.map .update))).2 = .value (.layout l) := by
  intro inst fresh values
  have hvalues : values = rows.filterMap (brought true) :=
    accepted_rows memory cancelled rows []
  have hpos : ∀ n ∈ values, 0 ≤ n.toInt := by
    intro n hn
    rw [hvalues] at hn
    obtain ⟨args, -, hbrought⟩ := List.mem_filterMap.mp hn
    exact nonneg_of_brought hbrought
  obtain ⟨l, hl⟩ := exists_layout_of_nonneg hpos
  have hlayout : layoutOf (rows.filterMap (brought true)) = .ok l := by
    rw [← hvalues, layoutOf, hl]
    rfl
  refine ⟨l, ?_, key_of_nonneg hpos hl, ?_, span_eq_largest hpos hl, isSome_distance_zero_iff hl,
    ?_⟩
  · rw [result_of_rows, hlayout]
    rfl
  · rw [sum_of_ofOffsets hl, width_eq_largest hpos]
  · intro cancelled memory other kept
    rw [result_of_rows, brought_of_kept, hlayout]
    rfl

/-- Among the rows that are refused is the least integer; an instance that is
not strict takes it, and then has no layout. -/
theorem strict_result_succeeds_past_least :
    let inst := (constructor true #[]).1
    let fresh : Env (Cells Accumulator) := ⟨(constructor true #[]).2, false⟩
    let other := (constructor false #[]).1
    let rows : List (List Value) := [[.number "16"], [.integer (.int64 Int64.minValue)], [.null],
      [.text "x"], [], [.integer (.uint64 9223372036854775807)]]
    let l : Layout := ⟨[("@0", 16), ("@16", 9223372036854775791)]⟩
    inst.accepted fresh rows = [16, Int64.maxValue] ∧
      (inst .result (inst.after fresh (rows.map .update))).2 = .value (.layout l) ∧
      ("@16", 9223372036854775791) ∈ l.entries ∧
      (∃ o : Int64, 0 ≤ o.toInt ∧ "@16" = Key.ofOffset o) ∧
      l.span.toInt = 2 ^ 63 - 1 ∧ (l.distance 0).isSome ∧
      (other .result (other.after fresh (rows.map .update))).2 =
        .failure (.accumulator (.overflow ⟨Int64.minValue, 0⟩)) := by
  intro inst fresh other rows l
  have hbrought : rows.filterMap (brought true) = [16, Int64.maxValue] := by decide +kernel
  have haccepted : inst.accepted fresh rows = [16, Int64.maxValue] :=
    (accepted_rows #[] false rows []).trans hbrought
  have hl : layoutOf [16, Int64.maxValue] = .ok l := by cbv
  have hresult := result_of_rows true false #[] rows
  rw [hbrought, hl] at hresult
  obtain ⟨m, hm, hkeys, -, hspan, hzero, -⟩ := strict_result_succeeds false #[] rows
  obtain rfl : l = m := Value.layout.inj (Outcome.value.inj (hresult.symm.trans hm))
  rw [haccepted] at hspan hzero
  refine ⟨haccepted, hm, by decide, hkeys _ (List.mem_cons_of_mem _ List.mem_cons_self),
    hspan.trans (by decide), hzero.mpr ⟨16, by decide, by decide⟩, ?_⟩
  have hall : rows.filterMap (brought false) = [16, Int64.minValue, Int64.maxValue] := by
    decide +kernel
  have hfailed : layoutOf [16, Int64.minValue, Int64.maxValue] =
      .error (.accumulator (.overflow ⟨Int64.minValue, 0⟩)) := by cbv
  have hother := result_of_rows false false #[] rows
  rw [hall, hfailed] at hother
  exact hother

end OffsetMap
end OffsetGaps
