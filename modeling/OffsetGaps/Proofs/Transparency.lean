/-
# Observers are transparent

A caller uses a catalogue and a host at will: makes instances and calls them,
aggregates rows, opens instances and uses them by their identifiers
(`Action`). Observers around the instances are made with them and are passed
by every call, but what the caller is told is what it would be told without
observers, and the memory of the kernels is the same all along.

A host without observers (`Host.bare`) is kept beside the observed one: the
two agree in all that an action reads, so one action is reported alike and
keeps the agreement (`Host.Bares`, `Desk.Bares.act`), and so does any number of
them.

The order of the layers is read off the trace. A tag stands for any wrapper
that lets calls through: it notes when it is put around an instance, for which
name, and when a call passes it.

Key definitions: `Action`, `Desk`, `Desk.act`, `Desk.bare`, `Host.Bares`,
`Layer.MadeBy`.
Key theorems: `Instance.drive_bare`, `Catalogue.instantiate_bare`,
`Desk.Bares.act`, `Desk.Bares.run`, `Ledger.perform_layers`,
`Ledger.attachAll_trace`, `Desk.observers_transparent`.
-/
import Mathlib.Data.List.Forall2
import OffsetGaps.Host.Cells
import OffsetGaps.Proofs.Accounting

namespace OffsetGaps

variable {σ : Type}

/-- What a caller does. A call is made in a context of the caller's that may
have been cancelled. -/
inductive Action where
  /-- Make an instance that no identifier stands for. -/
  | instantiate (name : String)
  /-- Call an instance by the number it was made under. -/
  | call (number : ℕ) (cancelled : Bool) (call : Call)
  | aggregate (cancelled : Bool) (name : String) (rows : List (List Value))
  | aggregateColumn (cancelled : Bool) (name : String) (values : List Value)
  | openInstance (name : String)
  | openCount
  | use (id : String) (u : Use)

inductive Report where
  /-- The number of the instance that was made. -/
  | made (outcome : Outcome ℕ)
  /-- How a call or an aggregation ended. -/
  | ended (outcome : Outcome Value)
  /-- There is no instance with the number. -/
  | absent
  | opened (outcome : Outcome String)
  | count (n : ℕ)
  | used (report : UseReport)

/-- A host, and the instances that its caller has made directly. -/
structure Desk (σ : Type) where
  host : Host σ
  made : List (Instance σ) := []

namespace Desk

def act (d : Desk σ) : Action → Desk σ × Report
  | .instantiate name =>
    match d.host.instantiate name with
    | (h, .value inst) => ({ host := h, made := d.made ++ [inst] }, .made (.value d.made.length))
    | (h, .failure e) => ({ d with host := h }, .made (.failure e))
    | (h, .abort text) => ({ d with host := h }, .made (.abort text))
  | .call number cancelled call =>
    match d.made[number]? with
    | none => (d, .absent)
    | some inst =>
      let (h, outcome) := (d.host.inContext cancelled).perform inst call
      ({ d with host := h }, .ended outcome)
  | .aggregate cancelled name rows =>
    let (h, outcome) := (d.host.inContext cancelled).aggregate name rows
    ({ d with host := h }, .ended outcome)
  | .aggregateColumn cancelled name values =>
    let (h, outcome) := (d.host.inContext cancelled).aggregateColumn name values
    ({ d with host := h }, .ended outcome)
  | .openInstance name =>
    let (h, outcome) := d.host.openInstance name
    ({ d with host := h }, .opened outcome)
  | .openCount => (d, .count d.host.openCount)
  | .use id u =>
    let (h, report) := d.host.use id u
    ({ d with host := h }, .used report)

def after (d : Desk σ) (actions : List Action) : Desk σ := actions.foldl (fun d a => (d.act a).1) d

def reports : Desk σ → List Action → List Report
  | _, [] => []
  | d, a :: rest => (d.act a).2 :: reports (d.act a).1 rest

end Desk

/-! ### Without observers -/

def Instance.bare (inst : Instance σ) : Instance σ := { inst with layers := [] }

def Handle.bare (handle : Handle σ) : Handle σ := { handle with inst := handle.inst.bare }

/-- The catalogue without observers. -/
def Catalogue.bare (c : Catalogue σ) : Catalogue σ := { c with observers := [] }

def Host.bare (h : Host σ) : Host σ :=
  { h with
    catalogue := h.catalogue.bare
    handles := h.handles.map fun e => (e.1, e.2.bare) }

def Desk.bare (d : Desk σ) : Desk σ := { host := d.host.bare, made := d.made.map Instance.bare }

namespace Instance

/-- A call ends without the layers as with them, and does the same to the
environment. -/
theorem perform_bare (inst : Instance σ) (call : Call) {l m : Ledger σ} (henv : m.env = l.env) :
    (inst.bare.perform call m).1.env = (inst.perform call l).1.env ∧
      (inst.bare.perform call m).2 = (inst.perform call l).2 := by
  rw [perform_env, perform_env, perform_outcome, perform_outcome, henv]
  exact ⟨rfl, rfl⟩

/-- So does a whole aggregation: before each row the two look at the same
environment. -/
theorem drive_bare (inst : Instance σ) : ∀ (rows : List (List Value)) (index : ℕ) {l m : Ledger σ},
    m.env = l.env →
      (inst.bare.drive index rows m).1.env = (inst.drive index rows l).1.env ∧
        (inst.bare.drive index rows m).2 = (inst.drive index rows l).2
  | [], _, _, _, henv => inst.perform_bare .result henv
  | row :: rest, index, l, m, henv => by
    obtain ⟨henv', hend⟩ := inst.perform_bare (.update row) henv
    unfold drive
    rw [henv]
    by_cases hcancelled : l.env.cancelled = true
    · simp [hcancelled, henv]
    · simp only [hcancelled, Bool.false_eq_true, if_false]
      generalize inst.bare.perform (.update row) m = observed at henv' hend
      generalize inst.perform (.update row) l = plain at henv' hend
      obtain ⟨m', outcome⟩ := observed
      obtain ⟨l', outcome'⟩ := plain
      simp only at henv' hend
      subst hend
      cases outcome with
      | value v => exact drive_bare inst rest (index + 1) henv'
      | failure e => exact ⟨henv', rfl⟩
      | abort text => exact ⟨henv', rfl⟩

end Instance

/-- The ledger after a function's constructor has run. -/
def Ledger.constructed (l : Ledger σ) (f : Function σ) : Ledger σ :=
  { l with env := { l.env with memory := (f.create l.env.memory).2 } }

namespace Catalogue

variable {c : Catalogue σ} {name : String}

/-- The constructor runs first, and then the layers are made. -/
theorem instantiate_found {f : Function σ} (hf : c.find? name = some f) (l : Ledger σ) :
    c.instantiate name l =
      .ok (⟨(f.create l.env.memory).1, ((l.constructed f).attachAll name c.observers).1⟩,
        ((l.constructed f).attachAll name c.observers).2) := by
  simp only [instantiate, hf]
  rfl

theorem instantiate_missing (hf : c.find? name = none) (l : Ledger σ) :
    c.instantiate name l = .error (.unknownFunction name) := by
  simp only [instantiate, hf]

/-- An instance made without observers is the one made with them, less its
layers. -/
theorem instantiate_bare (c : Catalogue σ) (name : String) {l m : Ledger σ} (henv : m.env = l.env) :
    (∃ e, c.instantiate name l = .error e ∧ c.bare.instantiate name m = .error e) ∨
      ∃ inst l' m', c.instantiate name l = .ok (inst, l') ∧
        c.bare.instantiate name m = .ok (inst.bare, m') ∧ m'.env = l'.env := by
  cases hf : c.find? name with
  | none =>
    exact Or.inl ⟨_, instantiate_missing hf l, instantiate_missing (c := c.bare) hf m⟩
  | some f =>
    have hbare : c.bare.instantiate name m =
        .ok (⟨(f.create l.env.memory).1, []⟩, m.constructed f) := by
      have hmade := instantiate_found (c := c.bare) hf m
      rw [henv] at hmade
      exact hmade
    refine Or.inr ⟨_, _, _, instantiate_found hf l, hbare, ?_⟩
    rw [Ledger.attachAll_env]
    unfold Ledger.constructed
    rw [henv]

end Catalogue

/-! ### One action -/

namespace Host

/-- `g` is `h` without observers: the two agree in all that an operation
reads. Logs, traces, counters and tapes may differ. -/
structure Bares (h g : Host σ) : Prop where
  catalogue : g.catalogue = h.catalogue.bare
  env : g.ledger.env = h.ledger.env
  handles : g.handles = h.handles.map fun e => (e.1, e.2.bare)
  supply : g.supply = h.supply

theorem bares_bare (h : Host σ) : h.Bares h.bare := ⟨rfl, rfl, rfl, rfl⟩

namespace Bares

variable {h g : Host σ} {id : String}

theorem inContext (hb : h.Bares g) (cancelled : Bool) :
    (h.inContext cancelled).Bares (g.inContext cancelled) := by
  refine ⟨hb.catalogue, ?_, hb.handles, hb.supply⟩
  unfold Host.inContext
  rw [hb.env]

theorem handle (hb : h.Bares g) (id : String) : g.handle? id = (h.handle? id).map Handle.bare := by
  unfold handle?
  rw [hb.handles]
  induction h.handles with
  | nil => rfl
  | cons e rest ih =>
    rw [List.map_cons, List.lookup_cons, List.lookup_cons, ih]
    cases id == e.1 <;> rfl

theorem openIds (hb : h.Bares g) : g.handles.map Prod.fst = h.handles.map Prod.fst := by
  rw [hb.handles, List.map_map]
  rfl

theorem release (hb : h.Bares g) (id : String) : (h.release id).Bares (g.release id) := by
  refine ⟨hb.catalogue, hb.env, ?_, hb.supply⟩
  unfold Host.release
  rw [hb.handles, List.filter_map]
  rfl

theorem perform (hb : h.Bares g) (inst : Instance σ) (call : Call) :
    (h.perform inst call).1.Bares (g.perform inst.bare call).1 ∧
      (g.perform inst.bare call).2 = (h.perform inst call).2 := by
  obtain ⟨henv, hend⟩ := inst.perform_bare call hb.env
  exact ⟨⟨hb.catalogue, henv, hb.handles, hb.supply⟩, hend⟩

theorem instantiate (hb : h.Bares g) (name : String) :
    (h.instantiate name).1.Bares (g.instantiate name).1 ∧
      (g.instantiate name).2 = (h.instantiate name).2.map Instance.bare := by
  unfold Host.instantiate
  rw [hb.catalogue]
  rcases h.catalogue.instantiate_bare name hb.env with ⟨e, hl, hm⟩ | ⟨inst, l', m', hl, hm, henv⟩
  · rw [hl, hm]
    exact ⟨hb, rfl⟩
  · rw [hl, hm]
    exact ⟨⟨rfl, henv, hb.handles, hb.supply⟩, rfl⟩

theorem aggregate (hb : h.Bares g) (name : String) (rows : List (List Value)) :
    (h.aggregate name rows).1.Bares (g.aggregate name rows).1 ∧
      (g.aggregate name rows).2 = (h.aggregate name rows).2 := by
  unfold Host.aggregate Catalogue.aggregate
  rw [hb.catalogue]
  rcases h.catalogue.instantiate_bare name hb.env with ⟨e, hl, hm⟩ | ⟨inst, l', m', hl, hm, henv⟩
  · rw [hl, hm]
    exact ⟨⟨rfl, hb.env, hb.handles, hb.supply⟩, rfl⟩
  · rw [hl, hm]
    obtain ⟨henv', hend⟩ := inst.drive_bare rows 0 henv
    exact ⟨⟨rfl, henv', hb.handles, hb.supply⟩, hend⟩

theorem openInstance (hb : h.Bares g) (name : String) :
    (h.openInstance name).1.Bares (g.openInstance name).1 ∧
      (g.openInstance name).2 = (h.openInstance name).2 := by
  unfold Host.openInstance
  rw [hb.catalogue, hb.supply, hb.openIds]
  rcases h.catalogue.instantiate_bare name hb.env with ⟨e, hl, hm⟩ | ⟨inst, l', m', hl, hm, henv⟩
  · rw [hl, hm]
    exact ⟨hb, rfl⟩
  · rw [hl, hm]
    cases h.supply.draw? (h.handles.map Prod.fst) with
    | none => exact ⟨⟨rfl, henv, hb.handles, rfl⟩, rfl⟩
    | some drawn =>
      refine ⟨⟨rfl, henv, ?_, rfl⟩, rfl⟩
      simp only [hb.handles, List.map_cons]
      rfl

theorem update (hb : h.Bares g) (id : String) (args : List Value) :
    (h.update id args).1.Bares (g.update id args).1 ∧
      (g.update id args).2 = (h.update id args).2 := by
  unfold Host.update
  rw [hb.handle id]
  cases h.handle? id with
  | none => exact ⟨hb, rfl⟩
  | some handle =>
    obtain ⟨hbares, hend⟩ := hb.perform handle.inst (.update args)
    exact ⟨hbares, congrArg (Outcome.map fun _ => ()) hend⟩

theorem finalize (hb : h.Bares g) (id : String) :
    (h.finalize id).1.Bares (g.finalize id).1 ∧ (g.finalize id).2 = (h.finalize id).2 := by
  unfold Host.finalize
  rw [hb.handle id]
  cases h.handle? id with
  | none => exact ⟨hb, rfl⟩
  | some handle => exact (hb.release id).perform handle.inst .result

theorem use (hb : h.Bares g) (id : String) (u : Use) :
    (h.use id u).1.Bares (g.use id u).1 ∧ (g.use id u).2 = (h.use id u).2 := by
  cases u with
  | update cancelled args =>
    obtain ⟨hbares, hend⟩ := (hb.inContext cancelled).update id args
    exact ⟨hbares, congrArg UseReport.updated hend⟩
  | finalize cancelled =>
    obtain ⟨hbares, hend⟩ := (hb.inContext cancelled).finalize id
    exact ⟨hbares, congrArg UseReport.finalized hend⟩
  | discard =>
    refine ⟨hb.release id, ?_⟩
    simp [Host.use, Host.discard, hb.handle id]
  | functionOf =>
    refine ⟨hb, ?_⟩
    simp only [Host.use, Host.functionOf, hb.handle id, Option.map_map]
    rfl

end Bares
end Host

namespace Desk

/-- The desk `e` is `d` without observers and layers. -/
structure Bares (d e : Desk σ) : Prop where
  host : d.host.Bares e.host
  made : e.made = d.made.map Instance.bare

namespace Bares

variable {d e : Desk σ}

/-- One action is reported alike on both desks, and neither of them falls
behind the other. -/
theorem act (hb : d.Bares e) (a : Action) :
    (d.act a).1.Bares (e.act a).1 ∧ (e.act a).2 = (d.act a).2 := by
  cases a with
  | instantiate name =>
    obtain ⟨hhost, hend⟩ := hb.host.instantiate name
    simp only [Desk.act]
    generalize e.host.instantiate name = bare at hhost hend ⊢
    generalize d.host.instantiate name = observed at hhost hend ⊢
    obtain ⟨g, outcome'⟩ := bare
    obtain ⟨h, outcome⟩ := observed
    simp only at hhost hend
    subst hend
    cases outcome with
    | value inst =>
      have hlength : e.made.length = d.made.length := by rw [hb.made, List.length_map]
      simp only [Outcome.map, hlength]
      exact ⟨⟨hhost, by simp [hb.made]⟩, trivial⟩
    | failure error => exact ⟨⟨hhost, hb.made⟩, rfl⟩
    | abort text => exact ⟨⟨hhost, hb.made⟩, rfl⟩
  | call number cancelled call =>
    unfold Desk.act
    simp only [hb.made, List.getElem?_map]
    cases d.made[number]? with
    | none => exact ⟨hb, rfl⟩
    | some inst =>
      obtain ⟨hhost, hend⟩ := (hb.host.inContext cancelled).perform inst call
      exact ⟨⟨hhost, rfl⟩, congrArg Report.ended hend⟩
  | aggregate cancelled name rows =>
    obtain ⟨hhost, hend⟩ := (hb.host.inContext cancelled).aggregate name rows
    exact ⟨⟨hhost, hb.made⟩, congrArg Report.ended hend⟩
  | aggregateColumn cancelled name values =>
    obtain ⟨hhost, hend⟩ :=
      (hb.host.inContext cancelled).aggregate name (values.map fun v => [v])
    exact ⟨⟨hhost, hb.made⟩, congrArg Report.ended hend⟩
  | openInstance name =>
    obtain ⟨hhost, hend⟩ := hb.host.openInstance name
    exact ⟨⟨hhost, hb.made⟩, congrArg Report.opened hend⟩
  | openCount =>
    have hcount : e.host.openCount = d.host.openCount := by
      unfold Host.openCount
      rw [hb.host.handles, List.length_map]
    exact ⟨hb, congrArg Report.count hcount⟩
  | use id u =>
    obtain ⟨hhost, hend⟩ := hb.host.use id u
    exact ⟨⟨hhost, hb.made⟩, congrArg Report.used hend⟩

theorem run : ∀ (actions : List Action) {d e : Desk σ}, d.Bares e →
    (d.after actions).Bares (e.after actions) ∧ e.reports actions = d.reports actions
  | [], _, _, hb => ⟨hb, rfl⟩
  | a :: rest, d, e, hb => by
    obtain ⟨hact, hreport⟩ := hb.act a
    obtain ⟨hrest, hreports⟩ := run rest hact
    refine ⟨hrest, ?_⟩
    unfold reports
    rw [hreport, hreports]

end Bares
end Desk

/-! ### The order of the layers -/

/-- What an observer notes when it is put around an instance of a function. -/
def Observer.made (function : String) : Observer → List TraceEvent
  | .logging => []
  | .recording => [.recording function]
  | .tagging label => [.tagging label function]

/-- What an observer notes when a call passes it. -/
def Observer.passed (call : Call) : Observer → List TraceEvent
  | .tagging label => [.passing label call]
  | _ => []

/-- The layer is one that the observer makes for an instance of a function. -/
def Layer.MadeBy (function : String) : Layer → Observer → Prop
  | .logging _ function', .logging => function' = function
  | .recording _, .recording => True
  | .tagging label, .tagging label' => label = label'
  | _, _ => False

namespace Ledger

/-- What the layers do before a call, the outermost first. -/
def announceAll (layers : List Layer) (call : Call) (l : Ledger σ) : Ledger σ :=
  layers.foldl (fun l layer => l.announce layer call) l

/-- What the layers do after a call, the innermost first. -/
def observeAll (layers : List Layer) (call : Call) (outcome : Outcome Value) (l : Ledger σ) :
    Ledger σ :=
  layers.foldr (fun layer l => l.observe layer call outcome) l

/-- **A call in its layers.** The call passes all layers, then the kernel is
called, and then the layers see the outcome and the call as the kernel leaves
it. -/
theorem perform_layers (kernel : Kernel σ) : ∀ (layers : List Layer) (call : Call) (l : Ledger σ),
    perform kernel layers call l =
      (observeAll layers (kernel.left l.env call) (kernel call l.env).2
        { l.announceAll layers call with env := (kernel call l.env).1 }, (kernel call l.env).2)
  | [], _, _ => rfl
  | layer :: inner, call, l => by
    unfold perform
    rw [perform_layers kernel inner call (l.announce layer call), announce_env]
    rfl

theorem announceAll_trace (call : Call) {function : String} {layers : List Layer}
    {observers : List Observer} (h : List.Forall₂ (Layer.MadeBy function) layers observers)
    (l : Ledger σ) :
    (l.announceAll layers call).trace =
      l.trace ++ (observers.flatMap (Observer.passed call)).toArray := by
  induction h generalizing l with
  | nil => simp [announceAll]
  | @cons layer o layers observers hlayer _ ih =>
    have hannounce : (l.announce layer call).trace = l.trace ++ (o.passed call).toArray := by
      cases layer <;> cases o <;> simp_all [announce, Observer.passed, Layer.MadeBy]
    calc (l.announceAll (layer :: layers) call).trace
        = (l.announce layer call).trace ++ (observers.flatMap (Observer.passed call)).toArray :=
          ih (l.announce layer call)
      _ = l.trace ++ ((o :: observers).flatMap (Observer.passed call)).toArray := by
          simp [hannounce]

theorem observeAll_trace (layers : List Layer) (call : Call) (outcome : Outcome Value)
    (l : Ledger σ) : (l.observeAll layers call outcome).trace = l.trace := by
  induction layers with
  | nil => rfl
  | cons layer inner ih =>
    have hobserve (m : Ledger σ) : (m.observe layer call outcome).trace = m.trace := by
      cases layer <;> cases outcome <;> cases call <;> rfl
    exact (hobserve _).trans ih

theorem attachAll_madeBy (function : String) (observers : List Observer) (l : Ledger σ) :
    List.Forall₂ (Layer.MadeBy function) (l.attachAll function observers).1 observers := by
  induction observers generalizing l with
  | nil => exact .nil
  | cons o rest ih =>
    have hlayer : ((l.attachAll function rest).2.attach function o).1.MadeBy function o := by
      cases o <;> simp [attach, Layer.MadeBy]
    exact .cons hlayer (ih l)

theorem attachAll_trace (function : String) (observers : List Observer) (l : Ledger σ) :
    (l.attachAll function observers).2.trace =
      l.trace ++ (observers.reverse.flatMap (Observer.made function)).toArray := by
  induction observers generalizing l with
  | nil => simp [attachAll]
  | cons o rest ih =>
    have hattach (m : Ledger σ) :
        (m.attach function o).2.trace = m.trace ++ (o.made function).toArray := by
      cases o <;> simp [attach, Observer.made]
    calc (l.attachAll function (o :: rest)).2.trace
        = (l.attachAll function rest).2.trace ++ (o.made function).toArray :=
          hattach (l.attachAll function rest).2
      _ = l.trace ++ ((o :: rest).reverse.flatMap (Observer.made function)).toArray := by
          simp [ih]

end Ledger

/-- The layers of a new instance, and what was noted when they were made. -/
theorem Catalogue.layers_of_instantiate {c : Catalogue σ} {name : String} {l l' : Ledger σ}
    {inst : Instance σ} (hnew : c.instantiate name l = .ok (inst, l')) :
    List.Forall₂ (Layer.MadeBy name) inst.layers c.observers ∧
      l'.trace = l.trace ++ (c.observers.reverse.flatMap (Observer.made name)).toArray := by
  cases hf : c.find? name with
  | none =>
    rw [instantiate_missing hf] at hnew
    cases hnew
  | some f =>
    rw [instantiate_found hf] at hnew
    cases hnew
    exact ⟨Ledger.attachAll_madeBy name c.observers (l.constructed f),
      Ledger.attachAll_trace name c.observers (l.constructed f)⟩

namespace Desk

/-- **Observers are transparent.** Whatever a caller does, it is told what it
would be told without observers: the same values, errors and aborts. At any
time the two desks have the same instances, which differ in their layers at
most, around the same kernels, and the memory of the kernels is the same.

The layers of a new instance are made by the catalogue's observers, from the
last to the first and for the name that was asked for, and lie around the
kernel with the first outermost. A call passes all of them in that order, and
then the kernel is called. The layers see the outcome, and the call as the
kernel left it, on the way back, when nothing more is noted of passing
calls. -/
theorem observers_transparent (d : Desk σ) (actions : List Action) :
    d.bare.reports actions = d.reports actions ∧
      (d.after actions).Bares (d.bare.after actions) ∧
      ∀ name l inst l', d.host.catalogue.instantiate name l = .ok (inst, l') →
        List.Forall₂ (Layer.MadeBy name) inst.layers d.host.catalogue.observers ∧
        l'.trace = l.trace ++
          (d.host.catalogue.observers.reverse.flatMap (Observer.made name)).toArray ∧
        ∀ call m,
          inst.perform call m =
            (Ledger.observeAll inst.layers (inst.kernel.left m.env call) (inst.kernel call m.env).2
              { m.announceAll inst.layers call with env := (inst.kernel call m.env).1 },
              (inst.kernel call m.env).2) ∧
          (m.announceAll inst.layers call).trace = m.trace ++
            (d.host.catalogue.observers.flatMap (Observer.passed call)).toArray ∧
          (inst.perform call m).1.trace = (m.announceAll inst.layers call).trace := by
  have hbares : d.Bares d.bare := ⟨d.host.bares_bare, rfl⟩
  obtain ⟨hafter, hreports⟩ := hbares.run actions
  refine ⟨hreports, hafter, ?_⟩
  intro name l inst l' hnew
  obtain ⟨hmade, htrace⟩ := Catalogue.layers_of_instantiate hnew
  refine ⟨hmade, htrace, ?_⟩
  intro call m
  have hperform : inst.perform call m = _ := Ledger.perform_layers inst.kernel inst.layers call m
  refine ⟨hperform, Ledger.announceAll_trace call hmade m, ?_⟩
  rw [hperform, Ledger.observeAll_trace]

/-- Two tags, a logging and a recording layer around instances that count
their rows and abort when they have none. -/
theorem observers_transparent_stacked :
    let count : Call → ℕ → ℕ × Outcome Value
      | .update _, n => (n + 1, .value .null)
      | .result, n => (n, if n = 0 then .abort "no rows" else .value .null)
    let c : Catalogue (Cells ℕ) :=
      { entries := [("count", ⟨{ name := "count" }, Cells.fresh 0 count⟩)]
        observers := [.tagging "outer", .logging, .recording, .tagging "inner"] }
    let d : Desk (Cells ℕ) := { host := { catalogue := c, ledger := { env := { memory := #[] } } } }
    let actions : List Action :=
      [.instantiate "count", .call 0 false .result, .call 0 false (.update []),
        .aggregate false "count" [[], []]]
    d.reports actions =
        [.made (.value 0), .ended (.abort "no rows"), .ended (.value .null),
          .ended (.value .null)] ∧
      (d.after actions).host.ledger.env.memory = #[1, 2] ∧
      ∃ inst l', c.instantiate "count" d.host.ledger = .ok (inst, l') ∧
        l'.trace =
          #[.tagging "inner" "count", .recording "count", .tagging "outer" "count"] ∧
        (inst.perform .result l').1.trace =
          l'.trace ++ #[.passing "outer" .result, .passing "inner" .result] := by
  intro count c d actions
  obtain ⟨hreports, hafter, hlayers⟩ := observers_transparent d actions
  obtain ⟨inst, l', hnew⟩ : ∃ inst l', c.instantiate "count" d.host.ledger = .ok (inst, l') :=
    ⟨_, _, rfl⟩
  obtain ⟨-, hmade, hcalls⟩ := hlayers "count" d.host.ledger inst l' hnew
  obtain ⟨-, hpassed, htrace⟩ := hcalls .result l'
  -- the desk without observers is the one that is run
  have hbare : d.bare.reports actions =
      [.made (.value 0), .ended (.abort "no rows"), .ended (.value .null),
        .ended (.value .null)] := by
    simp [reports, act, actions, d, c, count, bare, Host.bare, Catalogue.bare, Host.instantiate,
      Host.perform, Host.aggregate, Host.inContext, Catalogue.aggregate, Catalogue.instantiate,
      Catalogue.find?, Cells.fresh, Cells.reserve, Cells.kernel,
      Kernel.run, Ledger.attachAll, Ledger.perform, Instance.perform, Instance.drive]
  have hmemory : (d.bare.after actions).host.ledger.env.memory = #[1, 2] := by
    simp [after, act, actions, d, c, count, bare, Host.bare, Catalogue.bare, Host.instantiate,
      Host.perform, Host.aggregate, Host.inContext, Catalogue.aggregate, Catalogue.instantiate,
      Catalogue.find?, Cells.fresh, Cells.reserve, Cells.kernel,
      Kernel.run, Ledger.attachAll, Ledger.perform, Instance.perform, Instance.drive]
  refine ⟨hreports.symm.trans hbare, ?_, inst, l', hnew, hmade.trans rfl, ?_⟩
  · rw [← hafter.host.env]
    exact hmemory
  · rw [htrace, hpassed]
    rfl

end Desk
end OffsetGaps
