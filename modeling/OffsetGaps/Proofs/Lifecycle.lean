/-
# The life of an aggregation

An aggregation makes an instance of a function, gives it the rows one by one
and asks it for the result. Before each row it looks whether the caller has
cancelled. What the function does is open: a call may succeed, fail or be
aborted, and any call may make the caller cancel.

What happens is decided by the first row at which an aggregation stops
(`Kernel.stopsAt`), because the caller has cancelled before it or because the
call for it does not succeed. The rows before that row are passed over by a run
lemma: driving all rows comes to driving the rest of them, from the ledger after
the calls for the first (`Instance.drive_skip`).

Which calls were made is said of the whole ledger (`Instance.Called`).

Key definitions: `Kernel.beforeRow`, `Kernel.stopsAt`, `Instance.afterCalls`,
`Instance.Called`.
Key theorems: `Instance.drive_cons`, `Instance.drive_skip`,
`Instance.called_afterCalls`, `Catalogue.aggregate_lifecycle`.
-/
import OffsetGaps.Proofs.Rows
import OffsetGaps.Proofs.Transparency

namespace OffsetGaps

variable {σ : Type}

def Outcome.succeeded {α : Type} : Outcome α → Bool
  | .value _ => true
  | .failure _ => false
  | .abort _ => false

/-! ### Where an aggregation stops -/

namespace Kernel

/-- The environment just before row `i`, once the rows before it have been
given. -/
def beforeRow (k : Kernel σ) (env : Env σ) (rows : List (List Value)) (i : ℕ) : Env σ :=
  k.after env ((rows.take i).map .update)

/-- Whether the rows stop at row `i`: the caller has cancelled just before it,
or the call for it does not succeed. -/
def stopsAt (k : Kernel σ) (env : Env σ) (rows : List (List Value)) (i : ℕ) : Bool :=
  match rows[i]? with
  | none => false
  | some row =>
    (k.beforeRow env rows i).cancelled ||
      !(k (.update row) (k.beforeRow env rows i)).2.succeeded

variable (k : Kernel σ) (env : Env σ) (row : List Value) (rest : List (List Value))

theorem stopsAt_cons_zero :
    k.stopsAt env (row :: rest) 0 = (env.cancelled || !(k (.update row) env).2.succeeded) := rfl

/-- Behind the first row, the rows stop where the others do. -/
theorem stopsAt_cons_succ (i : ℕ) :
    k.stopsAt env (row :: rest) (i + 1) = k.stopsAt (k (.update row) env).1 rest i := rfl

theorem exists_row_of_stopsAt {rows : List (List Value)} {i : ℕ} {k : Kernel σ} {env : Env σ}
    (h : k.stopsAt env rows i = true) :
    ∃ row, rows[i]? = some row ∧
      ((k.beforeRow env rows i).cancelled = true ∨
        (k (.update row) (k.beforeRow env rows i)).2.succeeded = false) := by
  unfold stopsAt at h
  cases hrow : rows[i]? with
  | none => simp [hrow] at h
  | some row =>
    refine ⟨row, rfl, ?_⟩
    simpa [hrow] using h

end Kernel

namespace Instance

variable (inst : Instance σ)

def afterCalls (l : Ledger σ) (calls : List Call) : Ledger σ :=
  calls.foldl (fun l call => (inst.perform call l).1) l

theorem afterCalls_append (l : Ledger σ) (calls calls' : List Call) :
    inst.afterCalls l (calls ++ calls') = inst.afterCalls (inst.afterCalls l calls) calls' :=
  List.foldl_append

theorem afterCalls_env (l : Ledger σ) (calls : List Call) :
    (inst.afterCalls l calls).env = inst.kernel.after l.env calls := by
  induction calls generalizing l with
  | nil => rfl
  | cons call rest ih =>
    calc (inst.afterCalls l (call :: rest)).env
        = inst.kernel.after (inst.perform call l).1.env rest := ih _
      _ = inst.kernel.after l.env (call :: rest) := by rw [inst.perform_env]; rfl

/-- What is done with a row, by how the kernel answers. -/
theorem drive_cons (index : ℕ) (row : List Value) (rest : List (List Value)) (l : Ledger σ) :
    inst.drive index (row :: rest) l =
      if l.env.cancelled then (l, .failure .cancelled)
      else
        match (inst.kernel (.update row) l.env).2 with
        | .value _ => inst.drive (index + 1) rest (inst.perform (.update row) l).1
        | .failure e => ((inst.perform (.update row) l).1, .failure (.row index e))
        | .abort text => ((inst.perform (.update row) l).1, .abort text) := by
  rw [drive, ← inst.perform_outcome (.update row) l]
  rcases inst.perform (.update row) l with ⟨l', outcome⟩
  cases outcome <;> rfl

/-- **Rows that do not stop are passed over.** Driving all rows is driving the
rest of them from the ledger after the calls for the first ones, with the
numbers that they have among all. -/
theorem drive_skip : ∀ (n : ℕ) (rows : List (List Value)) (index : ℕ) (l : Ledger σ),
    n ≤ rows.length → (∀ i < n, inst.kernel.stopsAt l.env rows i = false) →
      inst.drive index rows l =
        inst.drive (index + n) (rows.drop n) (inst.afterCalls l ((rows.take n).map .update))
  | 0, _, _, _, _, _ => rfl
  | n + 1, [], _, _, hlength, _ => by simp at hlength
  | n + 1, row :: rest, index, l, hlength, hgo => by
    have hfirst := hgo 0 (by omega)
    rw [Kernel.stopsAt_cons_zero, Bool.or_eq_false_iff, Bool.not_eq_false'] at hfirst
    obtain ⟨hlive, hvalue⟩ := hfirst
    have hrest : ∀ i < n, inst.kernel.stopsAt (inst.perform (.update row) l).1.env rest i = false := by
      intro i hi
      rw [inst.perform_env, ← Kernel.stopsAt_cons_succ]
      exact hgo (i + 1) (by omega)
    have ih := drive_skip n rest (index + 1) (inst.perform (.update row) l).1
      (by simpa using hlength) hrest
    rw [drive_cons, hlive, if_neg Bool.false_ne_true]
    cases hend : (inst.kernel (.update row) l.env).2 with
    | value v =>
      simp only
      rw [ih, show index + 1 + n = index + (n + 1) by omega]
      rfl
    | failure e => simp [hend, Outcome.succeeded] at hvalue
    | abort text => simp [hend, Outcome.succeeded] at hvalue

/-- Driving comes to the first row that stops. -/
theorem drive_to_stop {rows : List (List Value)} {l : Ledger σ} {k : ℕ} {row : List Value}
    (hrow : rows[k]? = some row)
    (hk : IsLeast {i | inst.kernel.stopsAt l.env rows i = true} k) :
    inst.drive 0 rows l =
      inst.drive k (row :: rows.drop (k + 1)) (inst.afterCalls l ((rows.take k).map .update)) := by
  obtain ⟨hlt, hget⟩ := List.getElem?_eq_some_iff.mp hrow
  have hgo : ∀ i < k, inst.kernel.stopsAt l.env rows i = false := by
    intro i hi
    rw [← Bool.not_eq_true]
    intro hstops
    have hle : k ≤ i := hk.2 hstops
    omega
  rw [inst.drive_skip k rows 0 l (by omega) hgo, Nat.zero_add, List.drop_eq_getElem_cons hlt, hget]

/-! ### The calls that are made -/

/-- **Exactly these calls were made of an instance**, in this order, between
two ledgers. The later ledger is the one after them, so that the log, the
counters and the tapes tell of them and of nothing else; the environment is
the one in which the kernel leaves it when it is called in this way; and a tag
among the observers has noted them one by one. -/
structure Called (observers : List Observer) (calls : List Call) (l l' : Ledger σ) : Prop where
  ledger : l' = inst.afterCalls l calls
  env : l'.env = inst.kernel.after l.env calls
  trace : l'.trace =
    l.trace ++ (calls.flatMap fun call => observers.flatMap (Observer.passed call)).toArray

variable {inst} {name : String} {observers : List Observer}

theorem perform_trace (hmade : List.Forall₂ (Layer.MadeBy name) inst.layers observers) (call : Call)
    (l : Ledger σ) :
    (inst.perform call l).1.trace =
      l.trace ++ (observers.flatMap (Observer.passed call)).toArray := by
  unfold perform
  rw [Ledger.perform_layers, Ledger.observeAll_trace]
  exact Ledger.announceAll_trace call hmade l

theorem called_afterCalls (hmade : List.Forall₂ (Layer.MadeBy name) inst.layers observers)
    (calls : List Call) (l : Ledger σ) :
    inst.Called observers calls l (inst.afterCalls l calls) := by
  refine ⟨rfl, inst.afterCalls_env l calls, ?_⟩
  induction calls generalizing l with
  | nil => simp [afterCalls]
  | cons call rest ih =>
    calc (inst.afterCalls l (call :: rest)).trace
        = (inst.perform call l).1.trace ++
            (rest.flatMap fun call => observers.flatMap (Observer.passed call)).toArray := ih _
      _ = _ := by simp [perform_trace hmade]

/-- The calls for the first rows, and one more. -/
theorem called_then (hmade : List.Forall₂ (Layer.MadeBy name) inst.layers observers)
    (calls : List Call) (call : Call) (l : Ledger σ) :
    inst.Called observers (calls ++ [call]) l
      (inst.perform call (inst.afterCalls l calls)).1 := by
  have h := called_afterCalls hmade (calls ++ [call]) l
  rw [afterCalls_append] at h
  exact h

end Instance

namespace Catalogue

/-- **An aggregation runs through its rows, or stops at the first that does
not go.** A function is registered; its instances may do whatever they like
with rows, and the caller may have cancelled before. Let `k` be the least
number of a row such that the caller has cancelled just before the row or the
call for it does not succeed.

If there is such a row, the instance was called for the rows before it, in
order, and not for its result. If the caller had cancelled, no other call was
made, and the aggregation fails with just that. Otherwise row `k` was given as
well; its error is the aggregation's, with the number of the row in front, and
if its call was aborted, so is the aggregation.

If there is no such row, the instance was called for every row, in order, and
then once for its result, and the aggregation ends as that call does, whether
or not the caller has cancelled by then.

A column of values is aggregated as rows of one value each. -/
theorem aggregate_lifecycle {c : Catalogue σ} {name : String} {f : Function σ}
    (hf : c.find? name = some f) (rows : List (List Value)) (l : Ledger σ) :
    let done := c.aggregate name rows l
    ∃ inst made, c.instantiate name l = .ok (inst, made) ∧
      inst.kernel = (f.create l.env.memory).1 ∧
      made.env = { l.env with memory := (f.create l.env.memory).2 } ∧
      (∀ k, IsLeast {i | inst.kernel.stopsAt made.env rows i = true} k →
        ∃ row, rows[k]? = some row ∧
          let before := inst.kernel.beforeRow made.env rows k
          let given := (rows.take k).map Call.update
          (before.cancelled = true →
            done.2 = .failure .cancelled ∧ inst.Called c.observers given made done.1) ∧
          (before.cancelled = false →
            ((∃ e, (inst.kernel (.update row) before).2 = .failure e ∧
                done.2 = .failure (.row k e)) ∨
              ∃ text, (inst.kernel (.update row) before).2 = .abort text ∧
                done.2 = .abort text) ∧
            inst.Called c.observers (given ++ [.update row]) made done.1)) ∧
      ((∀ i, inst.kernel.stopsAt made.env rows i = false) →
        done.2 = (inst.kernel .result (inst.kernel.after made.env (rows.map .update))).2 ∧
        inst.Called c.observers (rows.map .update ++ [.result]) made done.1) ∧
      (∀ k e, (HostError.row k e).message = "row " ++ Nat.repr k ++ ": " ++ e.message) ∧
      HostError.cancelled.message = "context canceled" ∧
      ∀ values, c.aggregateColumn name values l = c.aggregate name (values.map fun v => [v]) l := by
  intro done
  obtain ⟨inst, made, hnew, hkernel, henv⟩ := instantiate_of_find hf l
  obtain ⟨hmade, -⟩ := layers_of_instantiate hnew
  have hdone : done = inst.drive 0 rows made := by
    simp only [done, aggregate, hnew]
  refine ⟨inst, made, hnew, hkernel, henv, fun k hk => ?_, fun hgo => ?_, fun _ _ => rfl, rfl,
    fun _ => rfl⟩
  · obtain ⟨row, hrow, hstops⟩ := Kernel.exists_row_of_stopsAt hk.1
    refine ⟨row, hrow, ?_⟩
    intro before given
    have hbefore : (inst.afterCalls made given).env = before := inst.afterCalls_env made given
    rw [hdone, inst.drive_to_stop hrow hk, inst.drive_cons, hbefore]
    refine ⟨fun hcancelled => ?_, fun hlive => ?_⟩
    · rw [if_pos hcancelled]
      exact ⟨rfl, Instance.called_afterCalls hmade given made⟩
    · have hfailed : (inst.kernel (.update row) before).2.succeeded = false :=
        hstops.resolve_left (by rw [Bool.not_eq_true]; exact hlive)
      have hcalled := Instance.called_then hmade given (.update row) made
      rw [hlive, if_neg Bool.false_ne_true]
      cases hend : (inst.kernel (.update row) before).2 with
      | value v => simp [hend, Outcome.succeeded] at hfailed
      | failure e => exact ⟨Or.inl ⟨e, rfl, rfl⟩, hcalled⟩
      | abort text => exact ⟨Or.inr ⟨text, rfl, rfl⟩, hcalled⟩
  · have hskip := inst.drive_skip rows.length rows 0 made le_rfl fun i _ => hgo i
    rw [List.drop_length, List.take_length] at hskip
    rw [hdone, hskip]
    refine ⟨?_, Instance.called_then hmade _ _ _⟩
    unfold Instance.drive
    rw [inst.perform_outcome, inst.afterCalls_env]

/-- Rows without a value are counted, those with one value make the caller
cancel, and those with more are refused. A row that cancels stops the next one,
and a tag has noted the calls up to there; a refused row fails with its number;
and the result is given if the last row cancels, or if the caller has cancelled
and there are no rows. -/
theorem aggregate_lifecycle_of_each_kind :
    let kernel : Kernel ℕ :=
      { step := fun call env =>
          match call with
          | .update [] => ({ env with memory := env.memory + 1 }, .value .null)
          | .update [_] => ({ env with cancelled := true }, .value .null)
          | .update _ => (env, .failure (.custom "refused"))
          | .result => (env, .value (.text "done")) }
    let c : Catalogue ℕ :=
      { entries := [("count", ⟨{ name := "count" }, fun memory => (kernel, memory)⟩)]
        observers := [.tagging "tag"] }
    let start (cancelled : Bool) : Ledger ℕ := { env := { memory := 0, cancelled } }
    (c.aggregate "count" [[], [.null], [], []] (start false)).2 = .failure .cancelled ∧
      (c.aggregate "count" [[], [.null], [], []] (start false)).1.trace =
        #[.tagging "tag" "count", .passing "tag" (.update []), .passing "tag" (.update [.null])] ∧
      (c.aggregate "count" [[], [.null, .null], []] (start false)).2 =
        .failure (.row 1 (.custom "refused")) ∧
      (c.aggregate "count" [[], [.null]] (start false)).2 = .value (.text "done") ∧
      (c.aggregate "count" [] (start true)).2 = .value (.text "done") := by
  intro kernel c start
  have hf : c.find? "count" = some ⟨{ name := "count" }, fun memory => (kernel, memory)⟩ := by
    simp [find?, c]
  obtain ⟨i₁, m₁, hnew₁, hk₁, he₁, hstop₁, -⟩ :=
    aggregate_lifecycle hf [[], [.null], [], []] (start false)
  obtain ⟨i₂, m₂, -, hk₂, he₂, hstop₂, -⟩ :=
    aggregate_lifecycle hf [[], [.null, .null], []] (start false)
  obtain ⟨i₃, m₃, -, hk₃, he₃, -, hgo₃, -⟩ := aggregate_lifecycle hf [[], [.null]] (start false)
  obtain ⟨i₄, m₄, -, hk₄, he₄, -, hgo₄, -⟩ := aggregate_lifecycle hf [] (start true)
  rw [hk₁, he₁] at hstop₁
  rw [hk₂, he₂] at hstop₂
  rw [hk₃, he₃] at hgo₃
  rw [hk₄, he₄] at hgo₄
  have hleast₁ : IsLeast {i | kernel.stopsAt ⟨0, false⟩ [[], [.null], [], []] i = true} 2 := by
    refine ⟨rfl, fun i hi => ?_⟩
    rcases i with _ | _ | i
    · exact absurd hi Bool.false_ne_true
    · exact absurd hi Bool.false_ne_true
    · omega
  have hleast₂ : IsLeast {i | kernel.stopsAt ⟨0, false⟩ [[], [.null, .null], []] i = true} 1 := by
    refine ⟨rfl, fun i hi => ?_⟩
    rcases i with _ | i
    · exact absurd hi Bool.false_ne_true
    · omega
  obtain ⟨_, -, hcancelled, -⟩ := hstop₁ 2 hleast₁
  obtain ⟨hend₁, hcalled₁⟩ := hcancelled rfl
  have htrace₁ := hcalled₁.trace
  rw [(layers_of_instantiate hnew₁).2] at htrace₁
  obtain ⟨row, hrow, -, hrefused⟩ := hstop₂ 1 hleast₂
  obtain rfl : [Value.null, .null] = row := Option.some.inj hrow
  obtain ⟨⟨e, he, hend₂⟩ | ⟨text, habort, -⟩, -⟩ := hrefused rfl
  · obtain rfl : HostError.custom "refused" = e := Outcome.failure.inj he
    have hgo : ∀ i, kernel.stopsAt ⟨0, false⟩ [[], [.null]] i = false := by
      intro i
      rcases i with _ | _ | i <;> rfl
    exact ⟨hend₁, htrace₁, hend₂, (hgo₃ hgo).1, (hgo₄ fun _ => rfl).1⟩
  · cases habort

end Catalogue
end OffsetGaps
