/-
# The rules of the line protocol

All that a caller can tell of the program's host is a table that gives, for
each identifier in use, the offsets taken under it (`Holdings`). The rules
say, command by command, what is answered and what becomes of the table
(`Exchange`). The host follows them: if its open instances hold what a table
says, each in a cell of its own and not yet asked for its layout
(`Host.Holds`), then the answer to any command is one that the rules allow,
and the instances hold afterwards what the rules say (`Host.Holds.exchange`).

What follows for every sequence of commands is read off the rules: which
refusals there are and when, and that a host never gets into a state in which
it would have to refuse for reasons of its own.

Key definitions: `Holdings`, `OffsetMap.column`, `Exchange`, `Host.Holds`,
`Host.afterCommands`.
Key theorems: `OffsetMap.drive_eq`, `Host.Holds.exchange`,
`Host.exists_holds`, `Host.refused_for_cause`.
-/
import OffsetGaps.Cli.Run
import OffsetGaps.Proofs.Accounting
import OffsetGaps.Proofs.Answers
import OffsetGaps.Proofs.Layouts

namespace OffsetGaps

/-- The offsets taken so far under each identifier in use, the latest
first. -/
abbrev Holdings := String → Option (List Int64)

namespace Holdings

/-- The table with another entry for one identifier. -/
def put (T : Holdings) (id : String) (entry : Option (List Int64)) : Holdings := fun i =>
  if i = id then entry else T i

variable {T : Holdings} {id i : String} {entry : Option (List Int64)}

@[simp] theorem put_self : T.put id entry id = entry := if_pos rfl

theorem put_ne (hne : i ≠ id) : T.put id entry i = T i := if_neg hne

/-- A strict host holds no negative offsets. -/
def Signed (strict : Bool) (T : Holdings) : Prop :=
  strict = true → ∀ id taken, T id = some taken → ∀ n ∈ taken, 0 ≤ n.toInt

end Holdings

namespace OffsetMap

/-- The layout of offsets, or the error that there is none. -/
def layoutOf (taken : List Int64) : Except HostError Layout :=
  (Layout.ofOffsets taken).mapError fun gap => .accumulator (.overflow gap)

/-- The layout of the offsets that a column of values carries, on top of
those taken before. The first value that is refused is named by its number,
counted from `index`. -/
def column (strict : Bool) : ℕ → List Value → List Int64 → Except HostError Layout
  | _, [], taken => layoutOf taken
  | index, v :: rest, taken =>
    match readRow strict [v] with
    | .error e => .error (.row index e)
    | .ok offset => column strict (index + 1) rest (offset.toList ++ taken)

end OffsetMap

/-- What a refusal says: its code and its message. -/
def Reply.problem? : Reply → Option (ErrorCode × String)
  | .answer (.refused _ code message) => some (code, message)
  | _ => none

theorem Reply.isNone_problem (a : Answer) : (Reply.answer a).problem?.isNone = a.code?.isNone := by
  cases a <;> rfl

theorem Reply.exists_problem_iff {a : Answer} {code : ErrorCode} :
    (∃ message, (Reply.answer a).problem? = some (code, message)) ↔ a.code? = some code := by
  cases a <;> simp [Reply.problem?, Answer.code?]

/-- Whether a command with this verb is about an open instance. -/
def Verb.onInstance : Verb → Bool
  | .update => true
  | .finalize => true
  | .discard => true
  | _ => false

/-- **The rules.** `Exchange strict T c reply T'`: to a host with holdings `T`
the command `c` may be given, `reply` is what comes of it, and the holdings
are `T'` afterwards. -/
inductive Exchange (strict : Bool) (T : Holdings) (c : Command) : Reply → Holdings → Prop where
  | init (hverb : c.type = Verb.init.name) : Exchange strict T c (.answer .init) T
  | functions (hverb : c.type = Verb.functions.name) (known : List FunctionInfo) :
    Exchange strict T c (.answer (.functions known)) T
  | shutdown (hverb : c.type = Verb.shutdown.name) : Exchange strict T c (.answer .shutdown) T
  | unsupported (hverb : ∀ verb : Verb, c.type ≠ verb.name) :
    Exchange strict T c
      (.answer (.refused c.type .notSupported ("unknown command type: " ++ c.type))) T
  | unknownFunction {verb : Verb} (hverb : c.type = verb.name)
    (hkind : verb = .openInstance ∨ verb = .aggregate)
    (hname : c.function ≠ OffsetMap.descriptor.qualifiedName) :
    Exchange strict T c (.refusal verb (.unknownFunction c.function)) T
  | opened {id : String} (hverb : c.type = Verb.openInstance.name)
    (hname : c.function = OffsetMap.descriptor.qualifiedName) (hnew : T id = none) :
    Exchange strict T c (.answer (.opened id)) (T.put id (some []))
  | exhausted (hverb : c.type = Verb.openInstance.name)
    (hname : c.function = OffsetMap.descriptor.qualifiedName)
    (hall : ∀ b : Block, T (identifier b) ≠ none) :
    Exchange strict T c (.abort "no free identifier") T
  | unknownInstance {verb : Verb} (hverb : c.type = verb.name) (hkind : verb.onInstance = true)
    (hnone : T c.id = none) : Exchange strict T c (.refusal verb (.unknownInstance c.id)) T
  | updated {taken : List Int64} {offset : Option Int64} (hverb : c.type = Verb.update.name)
    (hheld : T c.id = some taken) (hrow : OffsetMap.readRow strict [c.value] = .ok offset) :
    Exchange strict T c (.answer (.updated c.id)) (T.put c.id (some (offset.toList ++ taken)))
  | rowRefused {taken : List Int64} {e : HostError} (hverb : c.type = Verb.update.name)
    (hheld : T c.id = some taken) (hrow : OffsetMap.readRow strict [c.value] = .error e) :
    Exchange strict T c (.refusal .update e) T
  | finalized {taken : List Int64} {l : Layout} (hverb : c.type = Verb.finalize.name)
    (hheld : T c.id = some taken) (hlayout : OffsetMap.layoutOf taken = .ok l) :
    Exchange strict T c (.answer (.finalized c.id (.layout l))) (T.put c.id none)
  | overflowed {taken : List Int64} {e : HostError} (hverb : c.type = Verb.finalize.name)
    (hheld : T c.id = some taken) (hlayout : OffsetMap.layoutOf taken = .error e) :
    Exchange strict T c (.refusal .finalize e) (T.put c.id none)
  | discarded {taken : List Int64} (hverb : c.type = Verb.discard.name)
    (hheld : T c.id = some taken) : Exchange strict T c (.answer (.discarded c.id)) (T.put c.id none)
  | aggregated {l : Layout} (hverb : c.type = Verb.aggregate.name)
    (hname : c.function = OffsetMap.descriptor.qualifiedName)
    (hcolumn : OffsetMap.column strict 0 (c.values.getD []) [] = .ok l) :
    Exchange strict T c (.answer (.aggregated (.layout l))) T
  | columnRefused {e : HostError} (hverb : c.type = Verb.aggregate.name)
    (hname : c.function = OffsetMap.descriptor.qualifiedName)
    (hcolumn : OffsetMap.column strict 0 (c.values.getD []) [] = .error e) :
    Exchange strict T c (.refusal .aggregate e) T

/-! ### An offset map in its cell -/

namespace OffsetMap

variable {strict : Bool} {taken : List Int64}

theorem step_update_ok {args : List Value} {offset : Option Int64}
    (hrow : readRow strict args = .ok offset) :
    step strict (.update args) (.collecting taken) =
      (.collecting (offset.toList ++ taken), .value .null) := by
  cases offset <;> simp only [step, hrow] <;> rfl

theorem step_update_error {args : List Value} {e : HostError}
    (hrow : readRow strict args = .error e) :
    step strict (.update args) (.collecting taken) = (.collecting taken, .failure e) := by
  simp only [step, hrow]

theorem step_result :
    step strict .result (.collecting taken) =
      (.finalized, .ofExcept ((layoutOf taken).map Value.layout)) := by
  simp only [step, Accumulator.finalize, layoutOf]
  cases Layout.ofOffsets taken <;> rfl

end OffsetMap

namespace Cells

variable {α : Type} {step : Call → α → α × Outcome Value} {inst : Instance (Cells α)} {c : ℕ} {a : α}

/-- A call of an instance changes its own cell as its step says. -/
theorem perform_kernel (hkernel : inst.kernel = kernel step c) {l : Ledger (Cells α)}
    (ha : l.env.memory[c]? = some a) (call : Call) :
    (inst.perform call l).1.env.memory = l.env.memory.setIfInBounds c (step call a).1 ∧
      (inst.perform call l).1.env.cancelled = l.env.cancelled ∧
      (inst.perform call l).2 = (step call a).2 := by
  rw [inst.perform_env, inst.perform_outcome, hkernel, run_kernel ha]
  exact ⟨rfl, rfl, rfl⟩

end Cells

namespace OffsetMap

variable {strict : Bool} {inst : Instance (Cells Accumulator)} {c : ℕ}

/-- **A whole aggregation** by an instance that collects in its cell: the
outcome is that of the column of values, and no other cell changes. -/
theorem drive_eq (hkernel : inst.kernel = Cells.kernel (step strict) c) :
    ∀ (values : List Value) (index : ℕ) (taken : List Int64) (l : Ledger (Cells Accumulator)),
      l.env.cancelled = false → l.env.memory[c]? = some (.collecting taken) →
      (inst.drive index (values.map fun v => [v]) l).2 =
          .ofExcept ((column strict index values taken).map Value.layout) ∧
        (inst.drive index (values.map fun v => [v]) l).1.env.cancelled = false ∧
        ∀ i, i ≠ c →
          (inst.drive index (values.map fun v => [v]) l).1.env.memory[i]? = l.env.memory[i]?
  | [], index, taken, l, hlive, hcell => by
    obtain ⟨hmem, hcancel, hend⟩ := Cells.perform_kernel hkernel hcell .result
    rw [List.map_nil, Instance.drive, column, hend, hmem, hcancel, step_result]
    exact ⟨rfl, hlive, fun i hi => Array.getElem?_setIfInBounds_ne hi.symm⟩
  | v :: rest, index, taken, l, hlive, hcell => by
    obtain ⟨hmem, hcancel, hend⟩ := Cells.perform_kernel hkernel hcell (.update [v])
    obtain ⟨hc, -⟩ := Array.getElem?_eq_some_iff.mp hcell
    rw [List.map_cons, Instance.drive, hlive, column]
    rw [hlive] at hcancel
    generalize inst.perform (.update [v]) l = after at hmem hcancel hend
    obtain ⟨l', outcome⟩ := after
    have hkept : ∀ i, i ≠ c → l'.env.memory[i]? = l.env.memory[i]? := by
      intro i hi
      rw [hmem]
      exact Array.getElem?_setIfInBounds_ne hi.symm
    simp only at hend
    cases hrow : readRow strict [v] with
    | error e =>
      rw [step_update_error hrow] at hend
      subst hend
      exact ⟨rfl, hcancel, hkept⟩
    | ok offset =>
      rw [step_update_ok hrow] at hmem hend
      subst hend
      have hcell' : l'.env.memory[c]? = some (.collecting (offset.toList ++ taken)) := by
        rw [hmem]; exact Array.getElem?_setIfInBounds_self_of_lt hc
      obtain ⟨hresult, hlive', hothers⟩ := drive_eq hkernel rest (index + 1) _ l' hcancel hcell'
      exact ⟨hresult, hlive', fun i hi => (hothers i hi).trans (hkept i hi)⟩

/-- The functions of the program. -/
def catalogue (strict : Bool) : Catalogue (Cells Accumulator) :=
  { entries := [(descriptor.qualifiedName, ⟨descriptor, constructor strict⟩)]
    observers := [.logging] }

theorem find_catalogue (name : String) :
    (catalogue strict).find? name =
      if name = descriptor.qualifiedName then some ⟨descriptor, constructor strict⟩ else none := by
  rw [Catalogue.find?, catalogue, List.lookup_cons]
  by_cases hname : name = descriptor.qualifiedName
  · rw [if_pos hname, beq_iff_eq.mpr hname]
  · rw [if_neg hname, beq_eq_false_iff_ne.mpr hname]
    rfl

end OffsetMap

/-! ### A host and its holdings -/

theorem Verb.ofName_eq_some_iff {name : String} {verb : Verb} :
    Verb.ofName? name = some verb ↔ name = verb.name := by
  constructor
  · intro h
    have hname := List.find?_some h
    exact (beq_iff_eq.mp hname).symm
  · rintro rfl
    cases verb <;> rfl

theorem Verb.ofName_eq_none_iff {name : String} :
    Verb.ofName? name = none ↔ ∀ verb : Verb, name ≠ verb.name := by
  rw [Option.eq_none_iff_forall_ne_some]
  exact forall_congr' fun verb => not_congr Verb.ofName_eq_some_iff

namespace Host

/-- The host offers the offset map, its caller has not cancelled, and its
open instances hold what `T` says: the one under `id` collects in the cell
`cell id`, in which no other does. -/
structure Holds (strict : Bool) (h : OffsetHost) (T : Holdings) (cell : String → ℕ) : Prop where
  catalogue : h.catalogue = OffsetMap.catalogue strict
  live : h.ledger.env.cancelled = false
  free : ∀ id, T id = none → h.handle? id = none
  held : ∀ id taken, T id = some taken → ∃ handle, h.handle? id = some handle ∧
    handle.inst.kernel = Cells.kernel (OffsetMap.step strict) (cell id) ∧
    h.memory[cell id]? = some (.collecting taken)
  apart : ∀ i j, T i ≠ none → T j ≠ none → cell i = cell j → i = j

theorem holds_newHost (strict : Bool) (supply : Supply) (complaint : List Char → String) :
    Holds strict (newHost strict supply complaint) (fun _ => none) fun _ => 0 where
  catalogue := rfl
  live := rfl
  free _ _ := rfl
  held _ _ h := by cases h
  apart _ _ h := absurd rfl h

namespace Holds

variable {strict : Bool} {h g : OffsetHost} {T : Holdings} {cell : String → ℕ} {id : String}

theorem none_iff (hh : Holds strict h T cell) : h.handle? id = none ↔ T id = none := by
  refine ⟨fun hnone => ?_, hh.free id⟩
  cases hT : T id with
  | none => rfl
  | some taken =>
    obtain ⟨handle, hsome, -⟩ := hh.held id taken hT
    rw [hnone] at hsome
    cases hsome

theorem cell_lt (hh : Holds strict h T cell) (hid : T id ≠ none) : cell id < h.memory.size := by
  obtain ⟨taken, hT⟩ := Option.ne_none_iff_exists'.mp hid
  obtain ⟨-, -, -, hcell⟩ := hh.held id taken hT
  exact (Array.getElem?_eq_some_iff.mp hcell).1

theorem exhausted (hh : Holds strict h T cell) (hall : ∀ b : Block, T (identifier b) ≠ none) :
    h.Exhausted := by
  intro b
  by_contra hfree
  exact hall b (hh.none_iff.mp (handle_eq_none_iff.mpr hfree))

/-- What the host holds is read off its handles and the cells in use. -/
theorem congr (hh : Holds strict h T cell) (hcat : g.catalogue = h.catalogue)
    (hlive : g.ledger.env.cancelled = false) (hhandle : ∀ i, g.handle? i = h.handle? i)
    (hmem : ∀ i < h.memory.size, g.memory[i]? = h.memory[i]?) : Holds strict g T cell where
  catalogue := hcat.trans hh.catalogue
  live := hlive
  free i hi := (hhandle i).trans (hh.free i hi)
  held i taken hi := by
    obtain ⟨handle, hsome, hkernel, hcell⟩ := hh.held i taken hi
    refine ⟨handle, (hhandle i).trans hsome, hkernel, ?_⟩
    rw [hmem _ (hh.cell_lt (by rw [hi]; exact Option.some_ne_none _))]
    exact hcell
  apart := hh.apart

/-- An instance that has taken a row holds more. -/
theorem put_some {taken : List Int64} (hh : Holds strict h T cell) (hid : T id ≠ none)
    (hcat : g.catalogue = h.catalogue) (hlive : g.ledger.env.cancelled = false)
    (hhandle : ∀ i, g.handle? i = h.handle? i)
    (hmem : g.memory = h.memory.setIfInBounds (cell id) (.collecting taken)) :
    Holds strict g (T.put id (some taken)) cell := by
  have hopen : ∀ i, T.put id (some taken) i ≠ none → T i ≠ none := by
    intro i hi
    by_cases heq : i = id
    · rw [heq]; exact hid
    · rwa [Holdings.put_ne heq] at hi
  refine ⟨hcat.trans hh.catalogue, hlive, fun i hi => ?_, fun i taken' hi => ?_, fun i j hi hj =>
    hh.apart i j (hopen i hi) (hopen j hj)⟩
  · have hne : i ≠ id := by rintro rfl; rw [Holdings.put_self] at hi; cases hi
    rw [Holdings.put_ne hne] at hi
    exact (hhandle i).trans (hh.free i hi)
  · rw [hhandle, hmem]
    by_cases heq : i = id
    · subst heq
      rw [Holdings.put_self] at hi
      obtain ⟨old, hold⟩ := Option.ne_none_iff_exists'.mp hid
      obtain ⟨handle, hsome, hkernel, -⟩ := hh.held i old hold
      refine ⟨handle, hsome, hkernel, ?_⟩
      rw [Array.getElem?_setIfInBounds_self_of_lt (hh.cell_lt hid), Option.some.inj hi]
    · rw [Holdings.put_ne heq] at hi
      have hi' : T i ≠ none := by rw [hi]; exact Option.some_ne_none _
      have hcells : cell id ≠ cell i := fun hsame => heq (hh.apart i id hi' hid hsame.symm)
      obtain ⟨handle, hsome, hkernel, hcell⟩ := hh.held i taken' hi
      refine ⟨handle, hsome, hkernel, ?_⟩
      rw [Array.getElem?_setIfInBounds_ne hcells]
      exact hcell

/-- An identifier that is released holds nothing any more, whatever its cell
was left with. -/
theorem put_none (hh : Holds strict h T cell) (hcat : g.catalogue = h.catalogue)
    (hlive : g.ledger.env.cancelled = false)
    (hhandle : ∀ i, g.handle? i = if i = id then none else h.handle? i)
    (hmem : ∀ i, T i ≠ none → i ≠ id → g.memory[cell i]? = h.memory[cell i]?) :
    Holds strict g (T.put id none) cell := by
  have hkept : ∀ i, T.put id none i ≠ none → i ≠ id ∧ T i ≠ none := by
    intro i hi
    have hne : i ≠ id := by rintro rfl; exact hi Holdings.put_self
    rw [Holdings.put_ne hne] at hi
    exact ⟨hne, hi⟩
  refine ⟨hcat.trans hh.catalogue, hlive, fun i hi => ?_, fun i taken hi => ?_, fun i j hi hj =>
    hh.apart i j (hkept i hi).2 (hkept j hj).2⟩
  · rw [hhandle]
    by_cases heq : i = id
    · rw [if_pos heq]
    · rw [Holdings.put_ne heq] at hi
      rw [if_neg heq, hh.free i hi]
  · obtain ⟨hne, hi'⟩ := hkept i (by rw [hi]; exact Option.some_ne_none _)
    rw [Holdings.put_ne hne] at hi
    obtain ⟨handle, hsome, hkernel, hcell⟩ := hh.held i taken hi
    refine ⟨handle, ?_, hkernel, (hmem i hi' hne).trans hcell⟩
    rw [hhandle, if_neg hne, hsome]

/-- A new instance holds nothing yet, in a cell behind all others. -/
theorem put_new (hh : Holds strict h T cell) (hid : T id = none) {handle : Handle (Cells Accumulator)}
    (hkernel : handle.inst.kernel = Cells.kernel (OffsetMap.step strict) h.memory.size)
    (hcat : g.catalogue = h.catalogue) (hlive : g.ledger.env.cancelled = false)
    (hhandles : g.handles = (id, handle) :: h.handles) (hmem : g.memory = h.memory.push .empty) :
    Holds strict g (T.put id (some [])) fun i => if i = id then h.memory.size else cell i := by
  have hself : g.handle? id = some handle := by rw [handle?, hhandles, List.lookup_cons_self]
  have hother : ∀ i, i ≠ id → g.handle? i = h.handle? i := by
    intro i hne
    rw [handle?, hhandles, List.lookup_cons, beq_eq_false_iff_ne.mpr hne]
    rfl
  have hlt : ∀ i, i ≠ id → T.put id (some []) i ≠ none → cell i < h.memory.size := by
    intro i hne hi
    rw [Holdings.put_ne hne] at hi
    exact hh.cell_lt hi
  refine ⟨hcat.trans hh.catalogue, hlive, fun i hi => ?_, fun i taken hi => ?_, fun i j hi hj hsame => ?_⟩
  · have hne : i ≠ id := by rintro rfl; rw [Holdings.put_self] at hi; cases hi
    rw [Holdings.put_ne hne] at hi
    exact (hother i hne).trans (hh.free i hi)
  · by_cases heq : i = id
    · subst heq
      rw [Holdings.put_self] at hi
      rw [if_pos rfl, hmem, Array.getElem?_push_size]
      exact ⟨handle, hself, hkernel, by rw [← Option.some.inj hi]; rfl⟩
    · have hi' := hlt i heq (by rw [hi]; exact Option.some_ne_none _)
      rw [Holdings.put_ne heq] at hi
      obtain ⟨old, hsome, hkernel', hcell⟩ := hh.held i taken hi
      rw [if_neg heq, hother i heq, hmem, Array.getElem?_push, if_neg (Nat.ne_of_lt hi')]
      exact ⟨old, hsome, hkernel', hcell⟩
  · by_cases hi' : i = id
    · by_cases hj' : j = id
      · rw [hi', hj']
      · rw [if_pos hi', if_neg hj'] at hsame
        exact absurd hsame.symm (Nat.ne_of_lt (hlt j hj' hj))
    · by_cases hj' : j = id
      · rw [if_neg hi', if_pos hj'] at hsame
        exact absurd hsame (Nat.ne_of_lt (hlt i hi' hi))
      · rw [if_neg hi', if_neg hj'] at hsame
        rw [Holdings.put_ne hi'] at hi
        rw [Holdings.put_ne hj'] at hj
        exact hh.apart i j hi hj hsame

/-! ### The host follows the rules -/

variable {c : Command}

theorem exchange_openInstance (hh : Holds strict h T cell) (hverb : c.type = Verb.openInstance.name) :
    ∃ T' cell',
      Exchange strict T c (.ofOutcome .openInstance .opened (h.openInstance c.function).2) T' ∧
        Holds strict (h.openInstance c.function).1 T' cell' := by
  have hopening := h.openInstance_opening c.function
  generalize h.openInstance c.function = result at hopening
  have hfound : ∀ {f}, h.catalogue.find? c.function = some f →
      c.function = OffsetMap.descriptor.qualifiedName ∧ f.create = OffsetMap.constructor strict := by
    intro f hfind
    rw [hh.catalogue, OffsetMap.find_catalogue] at hfind
    split at hfind
    · rename_i hname
      exact ⟨hname, by rw [← Option.some.inj hfind]⟩
    · cases hfind
  cases hopening with
  | unknown hfind =>
    have hname : c.function ≠ OffsetMap.descriptor.qualifiedName := by
      intro hname
      rw [hh.catalogue, OffsetMap.find_catalogue, if_pos hname] at hfind
      cases hfind
    exact ⟨T, cell, .unknownFunction hverb (Or.inl rfl) hname, hh⟩
  | @exhausted f ledger hfind henv hall =>
    obtain ⟨hname, hcreate⟩ := hfound hfind
    rw [hcreate] at henv
    have hall' : ∀ b, T (identifier b) ≠ none := fun b hnone =>
      handle_eq_none_iff.mp (hh.free _ hnone) (hall b)
    refine ⟨T, cell, .exhausted hverb hname hall', hh.congr rfl ?_ (fun _ => rfl) fun i hi => ?_⟩
    · rw [henv]; exact hh.live
    · have hmem : ledger.env.memory = h.memory.push .empty := congrArg Env.memory henv
      show ledger.env.memory[i]? = h.memory[i]?
      rw [hmem, Array.getElem?_push, if_neg (Nat.ne_of_lt hi)]
  | opened hfind henv hkernel hfirst hrest =>
    obtain ⟨hname, hcreate⟩ := hfound hfind
    rw [hcreate] at henv hkernel
    have hnew : T _ = none := hh.none_iff.mp (handle_eq_none_iff.mpr hfirst.free)
    refine ⟨_, _, .opened hverb hname hnew, hh.put_new hnew hkernel rfl ?_ rfl ?_⟩
    · rw [henv]; exact hh.live
    · exact congrArg Env.memory henv

theorem exchange_update (hh : Holds strict h T cell) (hverb : c.type = Verb.update.name) :
    ∃ T' cell',
      Exchange strict T c
          (.ofOutcome .update (fun _ => .updated c.id) (h.update c.id [c.value]).2) T' ∧
        Holds strict (h.update c.id [c.value]).1 T' cell' := by
  cases hT : T c.id with
  | none =>
    rw [update, hh.free _ hT]
    exact ⟨T, cell, .unknownInstance hverb rfl hT, hh⟩
  | some taken =>
    obtain ⟨handle, hsome, hkernel, hcell⟩ := hh.held _ _ hT
    obtain ⟨hmem, hcancel, hend⟩ := Cells.perform_kernel hkernel hcell (.update [c.value])
    have hid : T c.id ≠ none := by rw [hT]; exact Option.some_ne_none _
    rw [update, hsome]
    simp only [perform]
    rw [hend]
    cases hrow : OffsetMap.readRow strict [c.value] with
    | error e =>
      rw [OffsetMap.step_update_error hrow] at hmem ⊢
      refine ⟨T, cell, .rowRefused hverb hT hrow,
        hh.congr rfl (hcancel.trans hh.live) (fun _ => rfl) fun i hi => ?_⟩
      -- the accumulator is put back as it was
      rw [memory, hmem]
      by_cases heq : cell c.id = i
      · subst heq
        rw [hcell]
        exact Array.getElem?_setIfInBounds_self_of_lt hi
      · exact Array.getElem?_setIfInBounds_ne heq
    | ok offset =>
      rw [OffsetMap.step_update_ok hrow] at hmem ⊢
      exact ⟨_, cell, .updated hverb hT hrow,
        hh.put_some hid rfl (hcancel.trans hh.live) (fun _ => rfl) hmem⟩

theorem exchange_finalize (hh : Holds strict h T cell) (hverb : c.type = Verb.finalize.name) :
    ∃ T' cell',
      Exchange strict T c (.ofOutcome .finalize (.finalized c.id) (h.finalize c.id).2) T' ∧
        Holds strict (h.finalize c.id).1 T' cell' := by
  cases hT : T c.id with
  | none =>
    rw [finalize, hh.free _ hT]
    exact ⟨T, cell, .unknownInstance hverb rfl hT, hh⟩
  | some taken =>
    obtain ⟨handle, hsome, hkernel, hcell⟩ := hh.held _ _ hT
    obtain ⟨hmem, hcancel, hend⟩ := Cells.perform_kernel hkernel hcell .result
    have hid : T c.id ≠ none := by rw [hT]; exact Option.some_ne_none _
    rw [OffsetMap.step_result] at hend
    rw [finalize, hsome]
    have hheld : Holds strict ((h.release c.id).perform handle.inst .result).1 (T.put c.id none) cell := by
      refine hh.put_none rfl (hcancel.trans hh.live) (fun i => handle_release i) fun i hi hne => ?_
      have hcells : cell c.id ≠ cell i := fun hsame => hne (hh.apart i c.id hi hid hsame.symm)
      show (handle.inst.perform .result h.ledger).1.env.memory[cell i]? = _
      rw [hmem]
      exact Array.getElem?_setIfInBounds_ne hcells
    refine ⟨_, cell, ?_, hheld⟩
    show Exchange strict T c
      (.ofOutcome .finalize (.finalized c.id) (handle.inst.perform .result h.ledger).2) _
    rw [hend]
    cases hlayout : OffsetMap.layoutOf taken with
    | ok l => exact .finalized hverb hT hlayout
    | error e => exact .overflowed hverb hT hlayout

theorem exchange_discard (hh : Holds strict h T cell) (hverb : c.type = Verb.discard.name) :
    ∃ T' cell',
      Exchange strict T c
          (if (h.discard c.id).2 then .answer (.discarded c.id)
            else .refusal .discard (.unknownInstance c.id)) T' ∧
        Holds strict (h.discard c.id).1 T' cell' := by
  cases hT : T c.id with
  | none =>
    have hnone := hh.free _ hT
    rw [discard, release_of_none hnone, hnone]
    exact ⟨T, cell, .unknownInstance hverb rfl hT, hh⟩
  | some taken =>
    obtain ⟨handle, hsome, -⟩ := hh.held _ _ hT
    rw [discard, hsome]
    exact ⟨_, cell, .discarded hverb hT,
      hh.put_none rfl hh.live (fun i => handle_release i) fun _ _ _ => rfl⟩

/-- An aggregation ends as its column of values does, and the holdings are
what they were. -/
theorem aggregateColumn_eq (hh : Holds strict h T cell) (values : List Value) :
    (h.aggregateColumn OffsetMap.descriptor.qualifiedName values).2 =
        .ofExcept ((OffsetMap.column strict 0 values []).map Value.layout) ∧
      Holds strict (h.aggregateColumn OffsetMap.descriptor.qualifiedName values).1 T cell := by
  have hfind := @OffsetMap.find_catalogue strict OffsetMap.descriptor.qualifiedName
  rw [← hh.catalogue, if_pos rfl] at hfind
  obtain ⟨inst, l, hok, hkernel, henv⟩ := Catalogue.instantiate_of_find hfind h.ledger
  have hmem : l.env.memory = h.memory.push .empty := congrArg Env.memory henv
  have hlive : l.env.cancelled = false := by rw [henv]; exact hh.live
  -- the instance collects in the new cell behind all others
  have hcell : l.env.memory[h.memory.size]? = some (.collecting []) := by
    rw [hmem]; exact Array.getElem?_push_size
  obtain ⟨hend, hlive', hothers⟩ := OffsetMap.drive_eq hkernel values 0 [] l hlive hcell
  rw [aggregateColumn, Catalogue.aggregateColumn, Catalogue.aggregate, hok]
  refine ⟨hend, hh.congr rfl hlive' (fun _ => rfl) fun i hi => ?_⟩
  show (inst.drive 0 _ l).1.env.memory[i]? = h.memory[i]?
  rw [hothers i (Nat.ne_of_lt hi), hmem, Array.getElem?_push, if_neg (Nat.ne_of_lt hi)]

theorem exchange_aggregate (hh : Holds strict h T cell) (hverb : c.type = Verb.aggregate.name) :
    ∃ T' cell',
      Exchange strict T c
          (.ofOutcome .aggregate .aggregated (h.aggregateColumn c.function (c.values.getD [])).2) T' ∧
        Holds strict (h.aggregateColumn c.function (c.values.getD [])).1 T' cell' := by
  by_cases hname : c.function = OffsetMap.descriptor.qualifiedName
  · obtain ⟨hend, hkeeps⟩ := hh.aggregateColumn_eq (c.values.getD [])
    rw [← hname] at hend hkeeps
    refine ⟨T, cell, ?_, hkeeps⟩
    rw [hend]
    cases hcolumn : OffsetMap.column strict 0 (c.values.getD []) [] with
    | ok l => exact .aggregated hverb hname hcolumn
    | error e => exact .columnRefused hverb hname hcolumn
  · have hfind := @OffsetMap.find_catalogue strict c.function
    rw [← hh.catalogue, if_neg hname] at hfind
    have herror : h.catalogue.instantiate c.function h.ledger =
        .error (.unknownFunction c.function) := by rw [Catalogue.instantiate, hfind]
    rw [aggregateColumn, Catalogue.aggregateColumn, Catalogue.aggregate, herror]
    exact ⟨T, cell, .unknownFunction hverb (Or.inr rfl) hname, hh⟩

/-- **The host follows the rules**, whatever the command. -/
theorem exchange (hh : Holds strict h T cell) (c : Command) :
    ∃ T' cell', Exchange strict T c (h.execute c).2 T' ∧ Holds strict (h.execute c).1 T' cell' := by
  rw [execute]
  cases hname : Verb.ofName? c.type with
  | none => exact ⟨T, cell, .unsupported (Verb.ofName_eq_none_iff.mp hname), hh⟩
  | some verb =>
    have hverb := Verb.ofName_eq_some_iff.mp hname
    cases verb with
    | init => exact ⟨T, cell, .init hverb, hh⟩
    | functions => exact ⟨T, cell, .functions hverb _, hh⟩
    | openInstance => exact hh.exchange_openInstance hverb
    | update => exact hh.exchange_update hverb
    | finalize => exact hh.exchange_finalize hverb
    | discard => exact hh.exchange_discard hverb
    | aggregate => exact hh.exchange_aggregate hverb
    | shutdown => exact ⟨T, cell, .shutdown hverb, hh⟩

end Holds
end Host

/-! ### Which refusals there are -/

namespace OffsetMap

variable {strict : Bool}

theorem readRow_nonneg {v : Value} {n : Int64} (hrow : readRow true [v] = .ok (some n)) :
    0 ≤ n.toInt := by
  rw [readRow] at hrow
  split at hrow
  · cases hrow
  · cases hrow
  · rename_i m _
    split at hrow
    · cases hrow
    · rename_i hsign
      have hsign' : ¬ m < 0 := by simpa using hsign
      rw [← Option.some.inj (Except.ok.inj hrow)]
      rw [Int64.lt_iff_toInt_lt] at hsign'
      exact Int.not_lt.mp hsign'

/-- A value is refused for its type, or by a strict host for its sign. -/
theorem code_of_readRow {v : Value} {e : HostError} (hrow : readRow strict [v] = .error e) :
    ErrorCode.ofError e = .typeError ∨ ErrorCode.ofError e = .negativeOffset ∧ strict = true := by
  rw [readRow] at hrow
  split at hrow
  · rw [← Except.error.inj hrow]
    exact Or.inl rfl
  · cases hrow
  · split at hrow
    · rename_i hsign
      rw [← Except.error.inj hrow]
      exact Or.inr ⟨rfl, (Bool.and_eq_true_iff.mp hsign).1⟩
    · cases hrow

/-- Offsets have no layout only if one of them is negative. -/
theorem code_of_layoutOf {taken : List Int64} {e : HostError} (hlayout : layoutOf taken = .error e) :
    ErrorCode.ofError e = .overflow ∧ ∃ n ∈ taken, n.toInt < 0 := by
  rw [layoutOf] at hlayout
  cases hoffsets : Layout.ofOffsets taken with
  | ok l => rw [hoffsets] at hlayout; cases hlayout
  | error gap =>
    rw [hoffsets] at hlayout
    obtain ⟨-, hnext⟩ := ofOffsets_eq_error_iff.mp hoffsets
    rw [← Except.error.inj hlayout]
    exact ⟨rfl, _, (nextIn_least_zero_iff.mp hnext).1, by decide⟩

/-- A column is refused for one of its values, or because its offsets have no
layout. -/
theorem code_of_column {e : HostError} : ∀ {values : List Value} {index : ℕ} {taken : List Int64},
    (strict = true → ∀ n ∈ taken, 0 ≤ n.toInt) → column strict index values taken = .error e →
      ErrorCode.ofError e = .typeError ∨ ErrorCode.ofError e = .negativeOffset ∧ strict = true ∨
        ErrorCode.ofError e = .overflow ∧ strict = false
  | [], _, taken, hsigned, hcolumn => by
    obtain ⟨hcode, n, hn, hneg⟩ := code_of_layoutOf hcolumn
    refine Or.inr (Or.inr ⟨hcode, ?_⟩)
    by_contra hstrict
    have hpos := hsigned (by simpa using hstrict) n hn
    omega
  | v :: rest, index, taken, hsigned, hcolumn => by
    rw [column] at hcolumn
    split at hcolumn
    · rename_i e' hrow
      rw [← Except.error.inj hcolumn]
      rcases code_of_readRow hrow with hcode | hcode
      · exact Or.inl hcode
      · exact Or.inr (Or.inl hcode)
    · rename_i offset hrow
      refine code_of_column (fun hstrict n hn => ?_) hcolumn
      subst hstrict
      rcases List.mem_append.mp hn with hn | hn
      · obtain rfl := Option.mem_toList.mp hn
        exact readRow_nonneg hrow
      · exact hsigned rfl n hn

end OffsetMap

/-- The rules keep negative offsets out of a strict host. -/
theorem Exchange.signed {strict : Bool} {T T' : Holdings} {c : Command} {reply : Reply}
    (he : Exchange strict T c reply T') (hs : T.Signed strict) : T'.Signed strict := by
  have hput : ∀ {id entry}, (∀ taken, entry = some taken → strict = true → ∀ n ∈ taken, 0 ≤ n.toInt) →
      (T.put id entry).Signed strict := by
    intro id entry hentry hstrict i taken hi n hn
    by_cases heq : i = id
    · subst heq
      rw [Holdings.put_self] at hi
      exact hentry taken hi hstrict n hn
    · rw [Holdings.put_ne heq] at hi
      exact hs hstrict i taken hi n hn
  cases he with
  | init | functions | shutdown | unsupported | unknownFunction | exhausted | unknownInstance
    | rowRefused | aggregated | columnRefused => exact hs
  | opened =>
    refine hput fun taken htaken _ n hn => ?_
    rw [← Option.some.inj htaken] at hn
    cases hn
  | @updated taken offset hverb hheld hrow =>
    refine hput fun taken' htaken hstrict n hn => ?_
    subst hstrict
    rw [← Option.some.inj htaken] at hn
    rcases List.mem_append.mp hn with hn | hn
    · obtain rfl := Option.mem_toList.mp hn
      exact OffsetMap.readRow_nonneg hrow
    · exact hs rfl _ taken hheld n hn
  | finalized => exact hput fun _ h => by cases h
  | overflowed => exact hput fun _ h => by cases h
  | discarded => exact hput fun _ h => by cases h

/-- The rules answer every command, but for an open when every identifier is
in use. -/
theorem Exchange.answer_or_exhausted {strict : Bool} {T T' : Holdings} {c : Command} {reply : Reply}
    (he : Exchange strict T c reply T') :
    (∃ answer, reply = .answer answer) ∨ reply = .abort "no free identifier" ∧
      c.type = Verb.openInstance.name ∧ T' = T ∧ ∀ b : Block, T (identifier b) ≠ none := by
  cases he with
  | exhausted hverb _ hall => exact Or.inr ⟨rfl, hverb, rfl, hall⟩
  | _ => exact Or.inl ⟨_, rfl⟩

/-- By the rules, a result is a layout. -/
theorem Exchange.layout_of_result {strict : Bool} {T T' : Holdings} {c : Command} {reply : Reply}
    (he : Exchange strict T c reply T') {a : Answer} (hreply : reply = .answer a) (v : Value)
    (hv : a.result? = some v) : ∃ l, v = .layout l := by
  cases he with
  | exhausted => cases hreply
  | finalized | aggregated =>
    cases hreply
    exact ⟨_, (Option.some.inj hv).symm⟩
  | _ =>
    cases hreply
    cases hv

/-- What must be so for a command to be refused with a code. -/
def Cause (strict : Bool) (T : Holdings) (c : Command) : ErrorCode → Prop
  | .parseError => False
  | .notSupported => ∀ verb : Verb, c.type ≠ verb.name
  | .unknownFunction =>
    (c.type = Verb.openInstance.name ∨ c.type = Verb.aggregate.name) ∧
      c.function ≠ OffsetMap.descriptor.qualifiedName
  | .unknownInstance => T c.id = none
  | .typeError => c.type = Verb.update.name ∨ c.type = Verb.aggregate.name
  | .negativeOffset => (c.type = Verb.update.name ∨ c.type = Verb.aggregate.name) ∧ strict = true
  | .invalidState => False
  | .overflow => (c.type = Verb.finalize.name ∨ c.type = Verb.aggregate.name) ∧ strict = false
  | .internalError => False

/-- The rules refuse for a cause only. -/
theorem Exchange.cause {strict : Bool} {T T' : Holdings} {c : Command} {reply : Reply}
    (he : Exchange strict T c reply T') (hs : T.Signed strict) {code : ErrorCode} {message : String}
    (hproblem : reply.problem? = some (code, message)) : Cause strict T c code := by
  have hcode : reply.problem?.map Prod.fst = some code := by rw [hproblem]; rfl
  cases he with
  | init | functions | shutdown | opened | exhausted | updated | finalized | discarded | aggregated =>
    cases hproblem
  | unsupported hverb =>
    rw [← Option.some.inj hcode]
    exact hverb
  | unknownFunction hverb hkind hname =>
    rw [← Option.some.inj hcode]
    rcases hkind with rfl | rfl
    · exact ⟨Or.inl hverb, hname⟩
    · exact ⟨Or.inr hverb, hname⟩
  | unknownInstance hverb hkind hnone =>
    rw [← Option.some.inj hcode]
    exact hnone
  | @rowRefused taken e hverb hheld hrow =>
    have hcode' : ErrorCode.ofError e = code := Option.some.inj hcode
    rcases OffsetMap.code_of_readRow hrow with htype | ⟨hsign, hstrict⟩
    · rw [← hcode', htype]
      exact Or.inl hverb
    · rw [← hcode', hsign]
      exact ⟨Or.inl hverb, hstrict⟩
  | @overflowed taken e hverb hheld hlayout =>
    have hcode' : ErrorCode.ofError e = code := Option.some.inj hcode
    obtain ⟨hover, n, hn, hneg⟩ := OffsetMap.code_of_layoutOf hlayout
    rw [← hcode', hover]
    refine ⟨Or.inl hverb, ?_⟩
    by_contra hstrict
    have hpos := hs (by simpa using hstrict) _ taken hheld n hn
    omega
  | @columnRefused e hverb hname hcolumn =>
    have hcode' : ErrorCode.ofError e = code := Option.some.inj hcode
    rcases OffsetMap.code_of_column (fun _ n hn => by cases hn) hcolumn with
      htype | ⟨hsign, hstrict⟩ | ⟨hover, hstrict⟩
    · rw [← hcode', htype]
      exact Or.inr hverb
    · rw [← hcode', hsign]
      exact ⟨Or.inr hverb, hstrict⟩
    · rw [← hcode', hover]
      exact ⟨Or.inr hverb, hstrict⟩

namespace Host

/-- The host after some commands. -/
def afterCommands {σ : Type} (h : Host σ) (cs : List Command) : Host σ :=
  cs.foldl (fun h c => (h.execute c).1) h

theorem Holds.afterCommands {strict : Bool} : ∀ (cs : List Command) {h : OffsetHost} {T : Holdings}
    {cell : String → ℕ}, Holds strict h T cell → T.Signed strict →
      ∃ T' cell', Holds strict (h.afterCommands cs) T' cell' ∧ T'.Signed strict
  | [], _, T, cell, hh, hs => ⟨T, cell, hh, hs⟩
  | c :: rest, h, T, cell, hh, hs => by
    obtain ⟨T', cell', he, hh'⟩ := hh.exchange c
    exact hh'.afterCommands rest (he.signed hs)

/-- Whatever the commands, the host holds what some table says. -/
theorem exists_holds (strict : Bool) (supply : Supply) (complaint : List Char → String)
    (cs : List Command) :
    ∃ T cell, Holds strict ((newHost strict supply complaint).afterCommands cs) T cell ∧
      T.Signed strict :=
  (holds_newHost strict supply complaint).afterCommands cs fun _ _ _ h => by cases h

/-- **Refusals have a cause in the command.** After any commands, no open
instance has been asked for its layout, and the next command is answered
(unless it is an open and every identifier is in use: it would search for
ever). It is never refused with an internal error or for an instance in the
wrong state; for an overflow only if it asks for a layout and the host is not
strict, for a negative offset only if it brings values and the host is
strict, for a type only if it brings values, and for an unknown instance only
if its identifier is not in use. All this can be read off the line that is
written: it is an object that tells the success and the code. -/
theorem refused_for_cause (strict : Bool) (supply : Supply) (complaint : List Char → String)
    (cs : List Command) (c : Command) :
    let h := (newHost strict supply complaint).afterCommands cs
    (∀ id handle, h.handle? id = some handle → ∃ cell a,
      handle.inst.kernel = Cells.kernel (OffsetMap.step strict) cell ∧
        h.memory[cell]? = some a ∧ a.isFinalized = false) ∧
    ((h.execute c).2 = .abort "no free identifier" ∧ c.type = "open" ∧ h.Exhausted ∨
      (∃ answer line v, (h.execute c).2 = .answer answer ∧ answer.text = .ok line ∧
        Json.readFirst line = some (v, []) ∧
        v.member? "success" = some (.bool (h.execute c).2.problem?.isNone) ∧
        ∀ code : ErrorCode, v.member? "errorCode" = some (.string code.text) ↔
          ∃ message, (h.execute c).2.problem? = some (code, message)) ∧
        ∀ code message, (h.execute c).2.problem? = some (code, message) →
          code ≠ .internalError ∧ code ≠ .invalidState ∧
          (code = .overflow → (c.type = "finalize" ∨ c.type = "aggregate") ∧ strict = false) ∧
          (code = .negativeOffset → (c.type = "update" ∨ c.type = "aggregate") ∧ strict = true) ∧
          (code = .typeError → c.type = "update" ∨ c.type = "aggregate") ∧
          (code = .unknownInstance → h.handle? c.id = none)) := by
  intro h
  obtain ⟨T, cell, hh, hs⟩ := exists_holds strict supply complaint cs
  refine ⟨fun id handle hsome => ?_, ?_⟩
  · cases hT : T id with
    | none => rw [hh.free id hT] at hsome; cases hsome
    | some taken =>
      obtain ⟨handle', hsome', hkernel, hcell⟩ := hh.held id taken hT
      obtain rfl := Option.some.inj (hsome.symm.trans hsome')
      exact ⟨cell id, _, hkernel, hcell, rfl⟩
  · obtain ⟨T', cell', he, -⟩ := hh.exchange c
    rcases he.answer_or_exhausted with ⟨answer, hanswer⟩ | ⟨habort, hverb, -, hall⟩
    · obtain ⟨line, hwritten⟩ := Answer.exists_written (he.layout_of_result hanswer)
      refine Or.inr ⟨⟨answer, line, answer.json, hanswer, hwritten.text_eq, hwritten.readFirst_eq, ?_,
        fun code => ?_⟩, fun code message hproblem => ?_⟩
      · rw [hanswer, Reply.isNone_problem, Answer.member_success]
      · rw [hanswer, Reply.exists_problem_iff, Answer.member_errorCode_iff]
      have hcause := he.cause hs hproblem
      refine ⟨?_, ?_, ?_, ?_, ?_, ?_⟩
      · rintro rfl; exact hcause
      · rintro rfl; exact hcause
      · rintro rfl; exact hcause
      · rintro rfl; exact hcause
      · rintro rfl; exact hcause
      · rintro rfl; exact hh.free _ hcause
    · exact Or.inl ⟨habort, hverb, hh.exhausted hall⟩

/-- A strict host refuses a negative offset that is brought to an open
instance; the instance has not been asked for its layout. -/
theorem refused_for_cause_negative :
    let id := "00000000-0000-4000-8000-000000000001"
    let h := (newHost true {}).afterCommands
      [{ type := "open", function := "wasmati.getBufferLocationMap" }]
    let c : Command := { type := "update", id, value := .number "-16" }
    (h.execute c).2.problem? = some (.negativeOffset, "value = -16: negative offset") ∧
      (∃ answer line v, (h.execute c).2 = .answer answer ∧ answer.text = .ok line ∧
        Json.readFirst line = some (v, []) ∧
        v.member? "errorCode" = some (.string "NEGATIVE_OFFSET")) ∧
      ((c.type = "update" ∨ c.type = "aggregate") ∧ true = true) ∧
      ∃ handle cell a, h.handle? id = some handle ∧
        handle.inst.kernel = Cells.kernel (OffsetMap.step true) cell ∧
        h.memory[cell]? = some a ∧ a.isFinalized = false := by
  intro id h c
  obtain ⟨hopen, hcause⟩ := refused_for_cause true {} (fun _ => "")
    [{ type := "open", function := "wasmati.getBufferLocationMap" }] c
  have hproblem : (h.execute c).2.problem? = some (.negativeOffset, "value = -16: negative offset") := by
    decide +kernel
  rcases hcause with ⟨habort, -⟩ | ⟨⟨answer, line, v, hanswer, htext, hread, -, hcode⟩, hcause⟩
  · change (h.execute c).2 = _ at habort
    rw [habort] at hproblem
    cases hproblem
  refine ⟨hproblem, ⟨answer, line, v, hanswer, htext, hread, ?_⟩,
    (hcause _ _ hproblem).2.2.2.1 rfl, ?_⟩
  · exact (hcode .negativeOffset).mpr ⟨_, hproblem⟩
  · have hsome : (h.handle? id).isSome = true := by decide +kernel
    obtain ⟨handle, hhandle⟩ := Option.isSome_iff_exists.mp hsome
    obtain ⟨cell, a, hkernel, hcell, ha⟩ := hopen id handle hhandle
    exact ⟨handle, cell, a, hhandle, hkernel, hcell, ha⟩

end Host
end OffsetGaps
