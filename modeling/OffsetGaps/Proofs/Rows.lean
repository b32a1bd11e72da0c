/-
# Rows that are refused leave no trace

A fresh offset map is given rows of any length, with values of any type, and
is then asked for its layout. A row is looked at in a fixed order: has it one
argument, is the argument taken as an integer or as absent, and, by a strict
instance, is the integer not negative. The first check that fails is the
error of the row, and the row changes nothing, as does a null. So the
instance stands, after any rows, as an accumulator that was given nothing but
the offsets which the good rows bring, and its layout is that accumulator's.

Once the layout has been asked for, rows are checked as before, and one that
passes is refused because the collection has ended.

Key definitions: `Kernel.after`, `OffsetMap.brought`, `OffsetMap.Checked`.
Key theorems: `OffsetMap.checked_step`, `OffsetMap.step_keeps`,
`OffsetMap.states_rows`, `OffsetMap.refused_rows_leave_no_trace`.
-/
import OffsetGaps.Host.OffsetMap
import OffsetGaps.Proofs.Accumulator

namespace OffsetGaps

/-- The environment after some calls of an instance. -/
def Kernel.after {σ : Type} (k : Kernel σ) (env : Env σ) (calls : List Call) : Env σ :=
  calls.foldl (fun env call => (k call env).1) env

namespace Cells

variable {α : Type}

/-- The state of a cell after some calls. -/
def states (step : Call → α → α × Outcome Value) (a : α) (calls : List Call) : α :=
  calls.foldl (fun a call => (step call a).1) a

theorem setIfInBounds_push_size (memory : Array α) (a b : α) :
    (memory.push a).setIfInBounds memory.size b = memory.push b := by
  apply Array.ext_getElem?
  intro i
  by_cases hi : i = memory.size
  · subst hi
    simp
  · have hne : memory.size ≠ i := fun h => hi h.symm
    rw [Array.getElem?_setIfInBounds_ne hne, Array.getElem?_push, Array.getElem?_push, if_neg hi,
      if_neg hi]

/-- A call of the instance in the last cell changes that cell and nothing
else. -/
theorem kernel_push (step : Call → α → α × Outcome Value) (memory : Array α) (a : α)
    (cancelled : Bool) (call : Call) :
    kernel step memory.size call ⟨memory.push a, cancelled⟩ =
      (⟨memory.push (step call a).1, cancelled⟩, (step call a).2) := by
  have hcell : (memory.push a)[memory.size]? = some a := Array.getElem?_push_size
  rw [run_kernel hcell, setIfInBounds_push_size]

theorem after_kernel_push (step : Call → α → α × Outcome Value) (memory : Array α)
    (cancelled : Bool) : ∀ (calls : List Call) (a : α),
      Kernel.after (kernel step memory.size) ⟨memory.push a, cancelled⟩ calls =
        ⟨memory.push (states step a calls), cancelled⟩
  | [], _ => rfl
  | call :: rest, a => by
    have ih := after_kernel_push step memory cancelled rest (step call a).1
    unfold Kernel.after at ih ⊢
    rw [List.foldl_cons, kernel_push, ih]
    rfl

end Cells

namespace OffsetMap

variable {strict : Bool}

/-- The offset that a row brings: it has one argument, the parameter takes
the argument as this integer, and a strict instance finds no fault with its
sign. -/
def brought (strict : Bool) : List Value → Option Int64
  | [v] =>
    match param.bindInteger v with
    | .ok (some n) => if strict = true ∧ n.toInt < 0 then none else some n
    | _ => none
  | _ => none

/-- Rows are answered by the checks in their order: number of arguments, type
of the argument, sign of the offset. A row that no check refuses, a null
among them, is answered with `passed`. -/
structure Checked (strict : Bool) (passed : Outcome Value) (answer : List Value → Outcome Value) :
    Prop where
  length : ∀ args, args.length ≠ 1 →
    answer args = .failure (.arity "wasmati.getBufferLocationMap" args.length 1)
  type : ∀ v e, param.bindInteger v = .error e → answer [v] = .failure (.hostType e)
  sign : ∀ v n, param.bindInteger v = .ok (some n) → strict = true → n.toInt < 0 →
    answer [v] = .failure (.negativeOffset "value" n)
  null : ∀ v, param.bindInteger v = .ok none → answer [v] = passed
  offset : ∀ v n, param.bindInteger v = .ok (some n) → (strict = true → 0 ≤ n.toInt) →
    answer [v] = passed

/-! ### One row -/

theorem sign_iff (n : Int64) : (strict && decide (n < 0)) = true ↔ strict = true ∧ n.toInt < 0 := by
  have hneg : n < 0 ↔ n.toInt < 0 := Int64.lt_iff_toInt_lt
  simp [hneg]

theorem readRow_of_length {args : List Value} (h : args.length ≠ 1) :
    readRow strict args = .error (.arity "wasmati.getBufferLocationMap" args.length 1) := by
  match args, h with
  | [], _ => rfl
  | [_], h => simp at h
  | _ :: _ :: _, _ => rfl

theorem readRow_of_type {v : Value} {e : TypeError} (h : param.bindInteger v = .error e) :
    readRow strict [v] = .error (.hostType e) := by
  simp only [readRow, h]

theorem readRow_of_null {v : Value} (h : param.bindInteger v = .ok none) :
    readRow strict [v] = .ok none := by
  simp only [readRow, h]

theorem readRow_of_offset {v : Value} {n : Int64} (h : param.bindInteger v = .ok (some n)) :
    readRow strict [v] =
      if strict = true ∧ n.toInt < 0 then .error (.negativeOffset "value" n) else .ok (some n) := by
  simp only [readRow, h, sign_iff]
  rfl

/-- A row brings what is read from it, and nothing if it is refused. -/
theorem brought_eq (args : List Value) :
    brought strict args = (readRow strict args).toOption.join := by
  by_cases hlen : args.length = 1
  · obtain ⟨v, rfl⟩ := List.length_eq_one_iff.mp hlen
    rcases hbind : param.bindInteger v with e | _ | n
    · simp [brought, hbind, readRow_of_type hbind, Except.toOption]
    · simp [brought, hbind, readRow_of_null hbind, Except.toOption]
    · by_cases hsign : strict = true ∧ n.toInt < 0
      · simp [brought, hbind, readRow_of_offset hbind, hsign, Except.toOption]
      · simp [brought, hbind, readRow_of_offset hbind, hsign, Except.toOption]
  · have hnone : brought strict args = none := by
      match args, hlen with
      | [], _ => rfl
      | [_], hlen => simp at hlen
      | _ :: _ :: _, _ => rfl
    simp [hnone, readRow_of_length hlen, Except.toOption]

/-- **The checks of a row**, whatever the state of the accumulator: it has a
say only where they all pass, and then the same one for every value. -/
theorem checked_step {a : Accumulator} {r : Except AccumulatorError Unit}
    (hadd : ∀ value, (a.add value).2 = r) :
    Checked strict (.ofExcept ((r.map fun _ => .null).mapError .accumulator))
      fun args => (step strict (.update args) a).2 := by
  have hpass : ∀ {args offset}, readRow strict args = .ok offset →
      (step strict (.update args) a).2 = .ofExcept ((r.map fun _ => .null).mapError .accumulator) := by
    intro args offset hrow
    simp only [step, hrow, hadd]
  have hfail : ∀ {args e}, readRow strict args = .error e →
      (step strict (.update args) a).2 = .failure e := by
    intro args e hrow
    simp only [step, hrow]
  refine
    { length := fun args hlen => hfail (readRow_of_length hlen)
      type := fun v e hbind => hfail (readRow_of_type hbind)
      sign := fun v n hbind hstrict hneg => hfail ?_
      null := fun v hbind => hpass (readRow_of_null hbind)
      offset := fun v n hbind hpos => ?_ }
  · rw [readRow_of_offset hbind, if_pos ⟨hstrict, hneg⟩]
  · have hsign : ¬ (strict = true ∧ n.toInt < 0) := fun h => absurd (hpos h.1) (by omega)
    have hrow : readRow strict [v] = .ok (some n) := by rw [readRow_of_offset hbind, if_neg hsign]
    exact hpass hrow

/-- What a row does to the accumulator is to add the offset it brings. -/
theorem step_row (args : List Value) (a : Accumulator) :
    (step strict (.update args) a).1 =
      a.after ((brought strict args).toList.map fun n => .add (some n)) := by
  cases hrow : readRow strict args with
  | error e =>
    simp only [step, brought_eq, hrow]
    rfl
  | ok offset =>
    simp only [step, brought_eq, hrow]
    cases offset with
    | none => cases a <;> rfl
    | some n => rfl

/-- A row that brings nothing changes nothing. -/
theorem step_keeps {args : List Value} (h : brought strict args = none) (a : Accumulator) :
    (step strict (.update args) a).1 = a := by
  rw [step_row, h]
  rfl

/-! ### All rows -/

/-- **After any rows** the accumulator stands as if it had been given the
offsets that they bring, and nothing else. -/
theorem states_rows : ∀ (rows : List (List Value)) (a : Accumulator),
    Cells.states (step strict) a (rows.map .update) =
      a.after ((rows.filterMap (brought strict)).map fun n => .add (some n))
  | [], _ => rfl
  | args :: rest, a => by
    have ih := states_rows rest (step strict (.update args) a).1
    have hsplit : (args :: rest).filterMap (brought strict) =
        (brought strict args).toList ++ rest.filterMap (brought strict) := by
      cases h : brought strict args <;> simp [h]
    unfold Cells.states at ih ⊢
    rw [List.map_cons, List.foldl_cons, ih, step_row, hsplit, List.map_append]
    unfold Accumulator.after
    rw [List.foldl_append]

/-- An accumulator that has been asked for its layout stays as it is. -/
theorem step_finalized (call : Call) : (step strict call .finalized).1 = .finalized := by
  cases call with
  | result => rfl
  | update args =>
    rw [step_row]
    exact Accumulator.after_finalized _

theorem states_finalized (strict : Bool) : ∀ calls : List Call,
    Cells.states (step strict) .finalized calls = .finalized
  | [] => rfl
  | call :: rest => by
    have ih := states_finalized strict rest
    unfold Cells.states at ih ⊢
    rw [List.foldl_cons, step_finalized, ih]

theorem states_result (a : Accumulator) (later : List Call) :
    Cells.states (step strict) a (.result :: later) = .finalized := by
  have hended : (step strict .result a).1 = .finalized := by cases a <;> rfl
  have hlater := states_finalized strict later
  unfold Cells.states at hlater ⊢
  rw [List.foldl_cons, hended, hlater]

theorem collecting_after (offsets : List Int64) :
    Accumulator.empty.after (offsets.map fun n => .add (some n)) = .collecting offsets.reverse := by
  have hmap : offsets.map (fun n => Accumulator.Request.add (some n)) =
      (offsets.map some).map .add := by simp
  rw [hmap, Accumulator.empty_after (Accumulator.finalize_not_mem_map _),
    Accumulator.offered_map_add, Accumulator.reduceOption_map_some]

/-- The result of an instance is the answer of its accumulator. -/
theorem step_result_collecting (offsets : List Int64) :
    (step strict .result (.collecting offsets.reverse)).2 =
      .ofExcept (((Accumulator.collect (offsets.map some)).map .layout).mapError .accumulator) := by
  have hcollect : (Accumulator.collecting offsets.reverse).finalize.2 =
      Accumulator.collect (offsets.map some) := by
    rw [Accumulator.finalize_collecting, Accumulator.collect_eq, Accumulator.reduceOption_map_some]
  unfold step
  rw [← hcollect]

/-- **Rows that are refused leave no trace.** A fresh instance is given any
rows.

* The next row is answered by the checks in their order, and with success if
  it passes, a null included; if it brings no offset, nothing changes.
* The whole memory is then what it was, with an accumulator beside it that
  was given, in order, exactly the offsets that the rows bring; and the result
  is the answer of such an accumulator.
* After the result and any further calls, a row is still answered by the
  checks, and refused if it passes them, a null included; a further result is
  refused; and no call changes anything. -/
theorem refused_rows_leave_no_trace (strict cancelled : Bool) (memory : Cells Accumulator)
    (rows : List (List Value)) (later : List Call) :
    let inst := (constructor strict memory).1
    let fresh : Env (Cells Accumulator) := ⟨(constructor strict memory).2, cancelled⟩
    let offsets := rows.filterMap (brought strict)
    let before := inst.after fresh (rows.map .update)
    let ended := inst.after before (.result :: later)
    Checked strict (.value .null) (fun args => (inst (.update args) before).2) ∧
    (∀ args, brought strict args = none → (inst (.update args) before).1 = before) ∧
    before = ⟨memory.push (.after .empty (offsets.map fun n => .add (some n))), cancelled⟩ ∧
    (inst .result before).2 =
      .ofExcept (((Accumulator.collect (offsets.map some)).map .layout).mapError .accumulator) ∧
    Checked strict (.failure (.accumulator .finalized)) (fun args => (inst (.update args) ended).2) ∧
    (inst .result ended).2 = .failure (.accumulator .finalized) ∧
    ∀ call, (inst call ended).1 = ended := by
  intro inst fresh offsets before ended
  have hbefore : before =
      ⟨memory.push (.after .empty (offsets.map fun n => .add (some n))), cancelled⟩ := by
    have hcell := Cells.after_kernel_push (step strict) memory cancelled (rows.map .update) .empty
    rw [states_rows] at hcell
    exact hcell
  have hended : ended = ⟨memory.push .finalized, cancelled⟩ := by
    have hcell := Cells.after_kernel_push (step strict) memory cancelled (.result :: later)
      (.after .empty (offsets.map fun n => .add (some n)))
    rw [states_result, ← hbefore] at hcell
    exact hcell
  -- a call of the instance is a step of what its cell holds
  have hcall : ∀ (a : Accumulator) (call : Call), inst call ⟨memory.push a, cancelled⟩ =
      (⟨memory.push (step strict call a).1, cancelled⟩, (step strict call a).2) :=
    fun a call => Cells.kernel_push (step strict) memory a cancelled call
  have hcollecting := collecting_after offsets
  refine ⟨?_, fun args hnone => ?_, hbefore, ?_, ?_, ?_, fun call => ?_⟩
  · simp only [hbefore, hcollecting, hcall]
    have hadd : ∀ value, ((Accumulator.collecting offsets.reverse).add value).2 = .ok () := by
      intro value
      cases value <;> rfl
    exact checked_step hadd
  · simp only [hbefore, hcall, step_keeps hnone]
  · simp only [hbefore, hcollecting, hcall, step_result_collecting]
  · simp only [hended, hcall]
    have hadd : ∀ value, (Accumulator.finalized.add value).2 = .error .finalized := fun _ => rfl
    exact checked_step hadd
  · simp only [hended, hcall]
    rfl
  · simp only [hended, hcall, step_finalized]

/-- A strict instance is given a row too long, a text, a negative offset and a
null between two offsets. Its layout is that of the two; afterwards a null is
refused, and a row too short still for its length. -/
theorem refused_rows_leave_no_trace_mixed :
    let inst := (constructor true #[]).1
    let fresh : Env (Cells Accumulator) := ⟨(constructor true #[]).2, false⟩
    let rows : List (List Value) := [[.number "16"], [.null, .null], [.text "x"],
      [.integer (.int8 (-8))], [.null], [.float 0x4040000000000000]]
    let before := inst.after fresh (rows.map .update)
    let ended := inst.after before [.result]
    rows.filterMap (brought true) = [16, 32] ∧
      (inst (.update [.integer (.int8 (-8))]) before).2 = .failure (.negativeOffset "value" (-8)) ∧
      (inst .result before).2 = .value (.layout ⟨[("@0", 16), ("@16", 16)]⟩) ∧
      (inst (.update [.null]) ended).2 = .failure (.accumulator .finalized) ∧
      (inst (.update []) ended).2 = .failure (.arity "wasmati.getBufferLocationMap" 0 1) := by
  intro inst fresh rows before ended
  obtain ⟨hrow, -, -, hresult, hlate, -, -⟩ :=
    refused_rows_leave_no_trace true false #[] rows []
  have hoffsets : rows.filterMap (brought true) = [16, 32] := by decide +kernel
  have hlayout : Accumulator.collect ([16, 32].map some) = .ok ⟨[("@0", 16), ("@16", 16)]⟩ := by cbv
  refine ⟨hoffsets, hrow.sign _ (-8) (by decide +kernel) rfl (by decide), ?_,
    hlate.null .null rfl, hlate.length [] (by decide)⟩
  rw [hoffsets, hlayout] at hresult
  exact hresult

end OffsetMap
end OffsetGaps
