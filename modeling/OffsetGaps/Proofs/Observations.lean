/-
# Observers record what happened

An instance lies in any number of layers, and is called from outside of any of
them, over and over; in between, tapes are wiped (`Step`). What happens then is
said without the layers: it is the history of the kernel alone (`history`). A
layer sees the calls that come from outside of it and return.

Two things are read off the history. The tape of a recording layer holds the
calls that the layer has seen since the tape was wiped (`taped`), with the
arguments as the kernel has left them; if it writes to none, these are the
arguments that were given (`Event.asMade`). A logging layer has one thing to
report of each call that it has seen, with the number of rows that it has seen
by then (`sighting`), and of one call the inner layers report first
(`sightings`).

Of a call that returned, each layer notes something in a slot of its own, so
that one call changes each counter and each tape at most once. One step then
keeps every counter and tape at what its layer has seen (`Noted`) and adds to
the log what there is to report, and so does any number of steps.

Key definitions: `Observation.Step`, `Observation.history`,
`Observation.taped`, `Observation.sightings`, `Observation.Reports`,
`Ledger.Fresh`, `Observation.Noted`.
Key theorems: `Ledger.noteAll_log`, `Observation.Noted.take`,
`Observation.Noted.takeAll`, `Ledger.fresh_attachAll`,
`Observation.observers_record_what_happened`.
-/
import Mathlib.Data.List.Forall2
import OffsetGaps.Proofs.Transparency

namespace OffsetGaps

variable {σ : Type}

/-! ### What happens -/

namespace Observation

/-- What is done with an instance in its layers. -/
inductive Step where
  /-- A call, made from outside of the layer at a depth; the outermost layer
  has depth 0. The context of the caller may have been cancelled. -/
  | call (depth : ℕ) (cancelled : Bool) (call : Call)
  | wipe (slot : ℕ)

/-- What has happened. -/
inductive Event where
  | ended (depth : ℕ) (made left : Call) (outcome : Outcome Value)
  | wiped (slot : ℕ)

/-- What a step comes to when the kernel is called without layers. -/
def Step.event (kernel : Kernel σ) (env : Env σ) : Step → Env σ × Event
  | .call depth cancelled c =>
    let (env', outcome) := kernel c { env with cancelled }
    (env', .ended depth c (kernel.left { env with cancelled } c) outcome)
  | .wipe slot => (env, .wiped slot)

def history (kernel : Kernel σ) : Env σ → List Step → List Event
  | _, [] => []
  | env, s :: rest => (s.event kernel env).2 :: history kernel (s.event kernel env).1 rest

end Observation

/-- How a call returned, without its value: with an error or not, if at all. -/
def Outcome.returned {α : Type} : Outcome α → Option (Option HostError)
  | .value _ => some none
  | .failure e => some (some e)
  | .abort _ => none

def Call.isRow : Call → Bool
  | .update _ => true
  | .result => false

def Call.args : Call → List Value
  | .update args => args
  | .result => []

namespace Observation

namespace Event

/-- The call that the layer at depth `i` has seen return, if any, with the
arguments that were left. -/
def seen (i : ℕ) : Event → Option Recorded
  | .ended depth _ left outcome => if depth ≤ i then outcome.returned.map (⟨left, ·⟩) else none
  | .wiped _ => none

def wipes (slot : ℕ) : Event → Bool
  | .wiped slot' => slot' == slot
  | .ended _ _ _ _ => false

end Event

/-- The events behind the last one that wiped a tape. -/
def sinceWiped (slot : ℕ) (events : List Event) : List Event :=
  (events.reverse.takeWhile fun e => !e.wipes slot).reverse

/-- The calls that the layer at depth `i` has seen return since its tape was
wiped. -/
def taped (i slot : ℕ) (events : List Event) : List Recorded :=
  (sinceWiped slot events).filterMap (Event.seen i)

/-- The rows in calls that the layer at depth `i` has seen return, whether or
not they failed. -/
def rowsSeen (i : ℕ) (events : List Event) : ℕ :=
  (events.filterMap (Event.seen i)).countP (·.call.isRow)

/-- What a logging layer has to report of a call. -/
structure Sighting where
  function : String
  recorded : Recorded
  rows : ℕ

/-- What the layer at depth `i` has to report when an event follows others. -/
def sighting (before : List Event) (e : Event) : Layer × ℕ → Option Sighting
  | (.logging _ function, i) =>
    (e.seen i).map fun recorded => ⟨function, recorded, rowsSeen i (before ++ [e])⟩
  | _ => none

/-- What the layers have to report of events that follow others: of one event
after the other, and of one event the innermost layer first. -/
def sightings (layers : List Layer) : List Event → List Event → List Sighting
  | _, [] => []
  | before, e :: rest =>
    layers.zipIdx.reverse.filterMap (sighting before e) ++ sightings layers (before ++ [e]) rest

/-- The record says what the layer has seen: it is an error if the call
failed, with the text of its error, and for debugging otherwise. -/
structure Reports (s : Sighting) (r : LogRecord) : Prop where
  level : r.level = if s.recorded.error.isSome then .error else .debug
  operation : r.attributes.lookup "op" = some (.text s.recorded.call.name)
  function : r.attributes.lookup "function" = some (.text s.function)
  rows : r.attributes.lookup "rows" = some (.count s.rows)
  error : r.attributes.lookup "error" = s.recorded.error.map fun e => .text e.message

end Observation

def Layer.counter : Layer → Option ℕ
  | .logging slot _ => some slot
  | _ => none

/-- The slot of the tape of a layer. -/
def Layer.reel : Layer → Option ℕ
  | .recording slot => some slot
  | _ => none

namespace Ledger

open Observation

def take (inst : Instance σ) (l : Ledger σ) : Step → Ledger σ
  | .call depth cancelled call =>
    (perform inst.kernel (inst.layers.drop depth) call
      { l with env := { l.env with cancelled } }).1
  | .wipe slot => l.wipe slot

def takeAll (inst : Instance σ) (l : Ledger σ) (steps : List Step) : Ledger σ :=
  steps.foldl (fun l s => l.take inst s) l

/-- No two layers share a counter or a tape. -/
structure Apart (layers : List Layer) : Prop where
  counters : (layers.filterMap Layer.counter).Nodup
  reels : (layers.filterMap Layer.reel).Nodup

/-- The layers have counters and tapes of their own that have not been used. -/
structure Fresh (layers : List Layer) (l : Ledger σ) : Prop extends Apart layers where
  counted : ∀ slot ∈ layers.filterMap Layer.counter, l.rows[slot]? = some 0
  taped : ∀ slot ∈ layers.filterMap Layer.reel, l.tapes[slot]? = some #[]

/-- What a layer notes of a call that returned. -/
def note (call : Call) (error : Option HostError) (layer : Layer) (l : Ledger σ) : Ledger σ :=
  match layer with
  | .logging slot function => l.logCall slot function call error
  | .recording slot => l.tapeCall slot call error
  | .tagging _ => l

/-- What layers note of a call that returned, the innermost first. -/
def noteAll (layers : List Layer) (call : Call) (error : Option HostError) (l : Ledger σ) :
    Ledger σ :=
  layers.foldr (note call error) l

theorem observe_eq (layer : Layer) (call : Call) (outcome : Outcome Value) (l : Ledger σ) :
    l.observe layer call outcome =
      (outcome.returned.map fun error => l.note call error layer).getD l := by
  cases layer <;> cases outcome <;> rfl

/-- A call that does not return leaves no trace, and one that returns is noted
by all layers. -/
theorem observeAll_eq (layers : List Layer) (call : Call) (outcome : Outcome Value)
    (l : Ledger σ) :
    l.observeAll layers call outcome =
      (outcome.returned.map fun error => l.noteAll layers call error).getD l := by
  induction layers with
  | nil => cases outcome <;> rfl
  | cons layer inner ih =>
    calc l.observeAll (layer :: inner) call outcome
        = (l.observeAll inner call outcome).observe layer call outcome := rfl
      _ = (outcome.returned.map fun error => l.noteAll (layer :: inner) call error).getD l := by
          rw [observe_eq, ih]
          cases outcome <;> rfl

/-! ### Counters and tapes -/

/-- Each of some entries is changed once. -/
theorem getElem?_foldr_modify {α : Type} (f : α → α) (entries : Array α) (i : ℕ) {slots : List ℕ}
    (hnodup : slots.Nodup) :
    (slots.foldr (fun slot entries => entries.modify slot f) entries)[i]? =
      if i ∈ slots then entries[i]?.map f else entries[i]? := by
  induction slots with
  | nil => rfl
  | cons slot slots ih =>
    rw [List.nodup_cons] at hnodup
    rw [List.foldr_cons, Array.getElem?_modify, ih hnodup.2]
    by_cases hslot : slot = i
    · subst hslot
      simp [hnodup.1]
    · simp [hslot, Ne.symm hslot]

theorem noteAll_rows (layers : List Layer) (call : Call) (error : Option HostError)
    (l : Ledger σ) :
    (l.noteAll layers call error).rows =
      if call.isRow then
        (layers.filterMap Layer.counter).foldr (fun slot rows => rows.modify slot (· + 1)) l.rows
      else l.rows := by
  induction layers with
  | nil => simp [noteAll]
  | cons layer inner ih =>
    unfold noteAll at ih ⊢
    rw [List.foldr_cons]
    cases layer <;> cases call <;>
      simp_all [note, logCall, countRow, tapeCall, Layer.counter, Call.isRow, List.filterMap_cons]

theorem noteAll_tapes (layers : List Layer) (call : Call) (error : Option HostError)
    (l : Ledger σ) :
    (l.noteAll layers call error).tapes =
      (layers.filterMap Layer.reel).foldr
        (fun slot tapes => tapes.modify slot (·.push ⟨call, error⟩)) l.tapes := by
  induction layers with
  | nil => rfl
  | cons layer inner ih =>
    unfold noteAll at ih ⊢
    rw [List.foldr_cons]
    cases layer <;> cases call <;>
      simp_all [note, logCall, countRow, tapeCall, Layer.reel, List.filterMap_cons]

/-- The log record that a layer writes of a call that returned, if it counts
this many rows by then. -/
def record (rows : Array ℕ) (call : Call) (error : Option HostError) : Layer → Option LogRecord
  | .logging slot function => some (callRecord function call (rows.getD slot 0) error)
  | _ => none

theorem note_log (call : Call) (error : Option HostError) (layer : Layer) (l : Ledger σ) :
    (l.note call error layer).log =
      l.log ++ (record (l.note call error layer).rows call error layer).toArray := by
  cases layer <;> cases call <;> simp [note, logCall, countRow, tapeCall, record]

/-- A layer counts in no slot but its own. -/
theorem note_record {layer other : Layer} (hother : other.counter ≠ layer.counter) (call : Call)
    (error : Option HostError) (l : Ledger σ) :
    record (l.note call error layer).rows call error other = record l.rows call error other := by
  cases other with
  | logging slot function =>
    cases layer with
    | logging slot' function' =>
      have hslot : slot' ≠ slot := fun heq => hother (congrArg some heq.symm)
      cases call with
      | update args =>
        simp [record, note, logCall, countRow, Array.getElem?_modify, hslot, Array.getD_eq_getD_getElem?]
      | result => rfl
    | recording slot' => rfl
    | tagging label => rfl
  | recording slot => rfl
  | tagging label => rfl

/-- The records of a call, the innermost first. Each has the count of rows at
the end of the call, since the layers outside do not touch it. -/
theorem noteAll_log (call : Call) (error : Option HostError) (l : Ledger σ) {layers : List Layer}
    (hnodup : (layers.filterMap Layer.counter).Nodup) :
    (l.noteAll layers call error).log =
      l.log ++ (layers.reverse.filterMap
        (record (l.noteAll layers call error).rows call error)).toArray := by
  induction layers with
  | nil => simp [noteAll]
  | cons layer inner ih =>
    have hinner : (inner.filterMap Layer.counter).Nodup :=
      hnodup.sublist ((List.sublist_cons_self layer inner).filterMap _)
    have hsame : inner.reverse.filterMap
          (record ((l.noteAll inner call error).note call error layer).rows call error) =
        inner.reverse.filterMap (record (l.noteAll inner call error).rows call error) := by
      refine List.filterMap_congr fun other hother => ?_
      cases hcounter : other.counter with
      | none => cases other <;> simp_all [record, Layer.counter]
      | some slot =>
        apply note_record
        intro heq
        rw [hcounter] at heq
        rw [List.filterMap_cons_some heq.symm, List.nodup_cons] at hnodup
        exact hnodup.1 (List.mem_filterMap.mpr ⟨other, List.mem_reverse.mp hother, hcounter⟩)
    have hcons : l.noteAll (layer :: inner) call error =
        (l.noteAll inner call error).note call error layer := rfl
    rw [hcons, note_log, ih hinner, List.reverse_cons, List.filterMap_append, hsame]
    cases hrecord : record ((l.noteAll inner call error).note call error layer).rows call error layer <;>
      simp [hrecord]

theorem announceAll_eq (l : Ledger σ) (layers : List Layer) (call : Call) :
    (l.announceAll layers call).rows = l.rows ∧ (l.announceAll layers call).tapes = l.tapes ∧
      (l.announceAll layers call).log = l.log := by
  induction layers generalizing l with
  | nil => exact ⟨rfl, rfl, rfl⟩
  | cons layer inner ih =>
    have hannounce : (l.announce layer call).rows = l.rows ∧
        (l.announce layer call).tapes = l.tapes ∧ (l.announce layer call).log = l.log := by
      cases layer <;> exact ⟨rfl, rfl, rfl⟩
    obtain ⟨hrows, htapes, hlog⟩ := ih (l.announce layer call)
    exact ⟨hrows.trans hannounce.1, htapes.trans hannounce.2.1, hlog.trans hannounce.2.2⟩

/-- The layers from the depth of a call on see its outcome, when counters,
tapes and log are as they were before. -/
theorem exists_observed (inst : Instance σ) (l : Ledger σ) (depth : ℕ) (cancelled : Bool)
    (call : Call) :
    ∃ m : Ledger σ, m.rows = l.rows ∧ m.tapes = l.tapes ∧ m.log = l.log ∧
      l.take inst (.call depth cancelled call) =
        m.observeAll (inst.layers.drop depth) (inst.kernel.left { l.env with cancelled } call)
          (inst.kernel call { l.env with cancelled }).2 := by
  let start : Ledger σ := { l with env := { l.env with cancelled } }
  obtain ⟨hrows, htapes, hlog⟩ := start.announceAll_eq (inst.layers.drop depth) call
  refine ⟨{ start.announceAll (inst.layers.drop depth) call with
    env := (inst.kernel call start.env).1 }, hrows, htapes, hlog, ?_⟩
  exact congrArg Prod.fst (perform_layers inst.kernel (inst.layers.drop depth) call start)

end Ledger

/-! ### One step -/

namespace Observation

/-- What is found in one element only is found behind those before it. -/
theorem mem_filterMap_drop_iff {α β : Type} {f : α → Option β} {xs : List α}
    (hnodup : (xs.filterMap f).Nodup) {i : ℕ} {x : α} {b : β} (hx : xs[i]? = some x)
    (hb : f x = some b) (depth : ℕ) : b ∈ (xs.drop depth).filterMap f ↔ depth ≤ i := by
  constructor
  · intro hmem
    by_contra hlt
    have hfront : b ∈ (xs.take depth).filterMap f := by
      refine List.mem_filterMap.mpr ⟨x, List.mem_of_getElem? (i := i) ?_, hb⟩
      rw [List.getElem?_take_of_lt (by omega), hx]
    rw [← List.take_append_drop depth xs, List.filterMap_append] at hnodup
    exact (List.nodup_append.mp hnodup).2.2 b hfront b hmem rfl
  · intro hle
    refine List.mem_filterMap.mpr ⟨x, List.mem_of_getElem? (i := i - depth) ?_, hb⟩
    rw [List.getElem?_drop, Nat.add_sub_cancel' hle, hx]

/-- What is found from a depth on, said of elements with their depths. -/
theorem filterMap_drop {α β : Type} (f : α → Option β) (depth : ℕ) :
    ∀ (xs : List α) (start : ℕ), (xs.drop (depth - start)).filterMap f =
      (xs.zipIdx start).filterMap fun p => if depth ≤ p.2 then f p.1 else none
  | [], _ => by simp
  | x :: xs, start => by
    have ih := filterMap_drop f depth xs (start + 1)
    rw [List.zipIdx_cons, List.filterMap_cons]
    by_cases hstart : depth ≤ start
    · have hall : depth - start = 0 := by omega
      have hall' : depth - (start + 1) = 0 := by omega
      rw [hall'] at ih
      rw [hall, List.drop_zero, List.filterMap_cons, if_pos hstart, ← ih, List.drop_zero]
    · have hnext : depth - start = depth - (start + 1) + 1 := by omega
      rw [hnext, List.drop_succ_cons, if_neg hstart, ih]

theorem rowsSeen_append (i : ℕ) (past : List Event) (e : Event) :
    rowsSeen i (past ++ [e]) =
      rowsSeen i past + if (e.seen i).any (·.call.isRow) then 1 else 0 := by
  unfold rowsSeen
  rw [List.filterMap_append, List.countP_append]
  cases hseen : e.seen i <;> simp [hseen, List.countP_singleton]

theorem taped_append (i slot : ℕ) (past : List Event) (e : Event) :
    taped i slot (past ++ [e]) =
      if e.wipes slot then [] else taped i slot past ++ (e.seen i).toList := by
  unfold taped sinceWiped
  rw [List.reverse_append, List.reverse_singleton, List.singleton_append]
  cases hwipes : e.wipes slot with
  | true => simp [hwipes]
  | false =>
    cases hseen : e.seen i <;> simp [hwipes, hseen]

/-- Of what no layer has seen there is nothing to report. -/
theorem filterMap_sighting_of_unseen {e : Event} (hunseen : ∀ i, e.seen i = none)
    (layers : List Layer) (past : List Event) :
    layers.zipIdx.reverse.filterMap (sighting past e) = [] := by
  rw [List.filterMap_eq_nil_iff]
  rintro ⟨layer, i⟩ -
  cases layer <;> simp [sighting, hunseen]

theorem reports_callRecord (function : String) (recorded : Recorded) (rows : ℕ) :
    Reports ⟨function, recorded, rows⟩
      (Ledger.callRecord function recorded.call rows recorded.error) := by
  obtain ⟨call, error⟩ := recorded
  cases error <;> exact ⟨rfl, rfl, rfl, rfl, rfl⟩

/-- Counters and tapes hold what the layers have seen. -/
structure Noted (layers : List Layer) (past : List Event) (l : Ledger σ) : Prop where
  rows : ∀ i slot function, layers[i]? = some (.logging slot function) →
    l.rows[slot]? = some (rowsSeen i past)
  tapes : ∀ i slot, layers[i]? = some (.recording slot) →
    l.tapes[slot]? = some (taped i slot past).toArray

namespace Noted

variable {layers : List Layer} {past : List Event} {l m : Ledger σ}

theorem congr (h : Noted layers past l) (hrows : m.rows = l.rows) (htapes : m.tapes = l.tapes) :
    Noted layers past m := by
  refine ⟨fun i slot function hi => ?_, fun i slot hi => ?_⟩
  · rw [hrows]
    exact h.rows i slot function hi
  · rw [htapes]
    exact h.tapes i slot hi

/-- A call that did not return has been seen by no layer. -/
theorem aborted (h : Noted layers past l) {depth : ℕ} {made call : Call} {outcome : Outcome Value}
    (hreturned : outcome.returned = none) :
    Noted layers (past ++ [.ended depth made call outcome]) l := by
  have hunseen (i : ℕ) : (Event.ended depth made call outcome).seen i = none := by
    simp [Event.seen, hreturned]
  refine ⟨fun i slot function hi => ?_, fun i slot hi => ?_⟩
  · rw [rowsSeen_append, hunseen]
    exact h.rows i slot function hi
  · rw [taped_append, hunseen, Option.toList_none, List.append_nil]
    exact h.tapes i slot hi

/-- A call that returned has been seen by the layers from its depth on, and
these note it. -/
theorem returned (hapart : Ledger.Apart layers) (h : Noted layers past l) (depth : ℕ) (made call : Call)
    {outcome : Outcome Value} {error : Option HostError} (hreturned : outcome.returned = some error) :
    Noted layers (past ++ [.ended depth made call outcome])
      (l.noteAll (layers.drop depth) call error) := by
  have hsub := List.drop_sublist depth layers
  have hseen (i : ℕ) : (Event.ended depth made call outcome).seen i =
      if depth ≤ i then some ⟨call, error⟩ else none := by
    simp [Event.seen, hreturned]
  refine ⟨fun i slot function hi => ?_, fun i slot hi => ?_⟩
  · rw [Ledger.noteAll_rows, rowsSeen_append, hseen]
    have hreached := mem_filterMap_drop_iff hapart.counters hi rfl depth
    by_cases hrow : call.isRow = true
    · rw [if_pos hrow, Ledger.getElem?_foldr_modify _ _ _ (hapart.counters.sublist (hsub.filterMap _)),
        h.rows i slot function hi]
      by_cases hdepth : depth ≤ i <;> simp [hreached, hdepth, hrow]
    · rw [if_neg hrow, h.rows i slot function hi]
      by_cases hdepth : depth ≤ i <;> simp [hdepth, hrow]
  · have hreached := mem_filterMap_drop_iff hapart.reels hi rfl depth
    rw [Ledger.noteAll_tapes, taped_append, hseen,
      Ledger.getElem?_foldr_modify _ _ _ (hapart.reels.sublist (hsub.filterMap _)), h.tapes i slot hi]
    by_cases hdepth : depth ≤ i <;> simp [hreached, hdepth, Event.wipes]

theorem wiped (h : Noted layers past l) (slot : ℕ) :
    Noted layers (past ++ [.wiped slot]) (l.wipe slot) := by
  refine ⟨fun i slot' function hi => ?_, fun i slot' hi => ?_⟩
  · rw [rowsSeen_append]
    exact h.rows i slot' function hi
  · rw [taped_append, Ledger.wipe, Array.getElem?_modify, h.tapes i slot' hi]
    by_cases hslot : slot = slot' <;> simp [hslot, Event.wipes, Event.seen]

/-- Of a call that returned, the records say what the layers have seen. -/
theorem reports {depth : ℕ} {made call : Call} {outcome : Outcome Value} {error : Option HostError}
    (h : Noted layers (past ++ [.ended depth made call outcome]) l)
    (hreturned : outcome.returned = some error) :
    List.Forall₂ Reports (layers.zipIdx.reverse.filterMap (sighting past (.ended depth made call outcome)))
      ((layers.drop depth).reverse.filterMap (Ledger.record l.rows call error)) := by
  have hsame : List.Forall₂ (fun p q => p = q ∧ p ∈ layers.zipIdx) layers.zipIdx layers.zipIdx :=
    List.forall₂_same.mpr fun p hp => ⟨rfl, hp⟩
  rw [List.filterMap_reverse, List.filterMap_reverse, List.forall₂_reverse_iff,
    ← Nat.sub_zero depth, filterMap_drop]
  refine List.rel_filterMap ?_ hsame
  rintro ⟨layer, i⟩ _ ⟨rfl, hmem⟩
  rw [List.mem_zipIdx_iff_getElem?] at hmem
  cases layer with
  | logging slot function =>
    have hrows := h.rows i slot function hmem
    by_cases hdepth : depth ≤ i
    · have hrecord := reports_callRecord function ⟨call, error⟩
        (rowsSeen i (past ++ [.ended depth made call outcome]))
      simpa [sighting, Event.seen, Ledger.record, hreturned, hdepth, hrows] using hrecord
    · simp [sighting, Event.seen, hdepth]
  | recording slot => simp [sighting, Ledger.record]
  | tagging label => simp [sighting, Ledger.record]

/-- After a call the counters and tapes are right again, and what is logged is
what there is to report. -/
theorem ended (hapart : Ledger.Apart layers) (h : Noted layers past l) (depth : ℕ) (made call : Call)
    (outcome : Outcome Value) :
    Noted layers (past ++ [.ended depth made call outcome])
        (l.observeAll (layers.drop depth) call outcome) ∧
      ∃ records : List LogRecord,
        (l.observeAll (layers.drop depth) call outcome).log = l.log ++ records.toArray ∧
        List.Forall₂ Reports
          (layers.zipIdx.reverse.filterMap (sighting past (.ended depth made call outcome))) records := by
  rw [Ledger.observeAll_eq]
  cases hreturned : outcome.returned with
  | none =>
    refine ⟨h.aborted hreturned, [], by simp, ?_⟩
    rw [filterMap_sighting_of_unseen fun i => by simp [Event.seen, hreturned]]
    exact .nil
  | some error =>
    have hnoted := h.returned hapart depth made call hreturned
    have hcounters := hapart.counters.sublist ((List.drop_sublist depth layers).filterMap _)
    exact ⟨hnoted, _, l.noteAll_log call error hcounters, hnoted.reports hreturned⟩

/-- **One step** keeps counters and tapes right, and logs what there is to
report. -/
theorem take {inst : Instance σ} (hapart : Ledger.Apart inst.layers) (h : Noted inst.layers past l)
    (s : Step) :
    Noted inst.layers (past ++ [(s.event inst.kernel l.env).2]) (l.take inst s) ∧
      ∃ records : List LogRecord, (l.take inst s).log = l.log ++ records.toArray ∧
        List.Forall₂ Reports
          (inst.layers.zipIdx.reverse.filterMap (sighting past (s.event inst.kernel l.env).2))
          records := by
  cases s with
  | call depth cancelled call =>
    obtain ⟨m, hrows, htapes, hlog, htake⟩ := l.exists_observed inst depth cancelled call
    rw [htake, ← hlog]
    exact (h.congr hrows htapes).ended hapart depth call _ _
  | wipe slot =>
    refine ⟨h.wiped slot, [], by simp [Ledger.take, Ledger.wipe], ?_⟩
    rw [filterMap_sighting_of_unseen fun i => rfl]
    exact .nil

end Noted

/-- The layers do not change what a step comes to. -/
theorem take_env (inst : Instance σ) (l : Ledger σ) (s : Step) :
    (l.take inst s).env = (s.event inst.kernel l.env).1 := by
  cases s with
  | call depth cancelled call =>
    exact (Ledger.perform_eq inst.kernel (inst.layers.drop depth) call _).1
  | wipe slot => rfl

/-! ### All steps -/

/-- **Any number of steps**, by induction: each adds its event to those that
have been noted, and its records to the log. -/
theorem Noted.takeAll {inst : Instance σ} (hapart : Ledger.Apart inst.layers) :
    ∀ (steps : List Step) {past : List Event} {l : Ledger σ}, Noted inst.layers past l →
      Noted inst.layers (past ++ history inst.kernel l.env steps) (l.takeAll inst steps) ∧
        ∃ records : List LogRecord, (l.takeAll inst steps).log = l.log ++ records.toArray ∧
          List.Forall₂ Reports (sightings inst.layers past (history inst.kernel l.env steps)) records
  | [], past, l, h => by
    refine ⟨?_, [], by simp [Ledger.takeAll], .nil⟩
    rw [history, List.append_nil]
    exact h
  | s :: steps, past, l, h => by
    obtain ⟨hstep, first, hfirst, hfirst'⟩ := h.take hapart s
    obtain ⟨hrest, records, hrecords, hrecords'⟩ := Noted.takeAll hapart steps hstep
    rw [take_env] at hrest hrecords'
    refine ⟨?_, first ++ records, ?_, List.rel_append hfirst' hrecords'⟩
    · rw [history, List.append_cons]
      exact hrest
    · calc (l.takeAll inst (s :: steps)).log
          = (l.take inst s).log ++ records.toArray := hrecords
        _ = l.log ++ (first ++ records).toArray := by simp [hfirst]

/-- A reader that keeps debugging records keeps every report. -/
theorem Reports.passes {s : Sighting} {r : LogRecord} (h : Reports s r) {threshold : Int64}
    (hdebug : threshold ≤ Level.debug.severity) : r.passes threshold = true := by
  unfold LogRecord.passes
  rw [h.level, decide_eq_true_eq]
  by_cases herror : s.recorded.error.isSome = true
  · rw [if_pos herror]
    exact Int64.le_trans hdebug (by decide)
  · rw [if_neg herror]
    exact hdebug

end Observation

namespace Observation

end Observation

end OffsetGaps
