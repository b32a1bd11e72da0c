/-
# Runs of a host's open instances

A caller opens instances, uses them by their identifiers and counts them, in
any order. `Host.after` is the host after any such operations. What the
proofs about them need is said here once for each part of a host: layers
change neither the environment of a kernel nor its outcome, an instance is
opened under an identifier that is not in use, and an operation on one
identifier leaves the handles of the others in place.

What an instance answers on its own is its behaviour: what each call does to
a state of the instance and how it ends. Behaviours that agree along a
relation of their states give the same reports for the same uses.

Key definitions: `Use`, `UseReport`, `Host.use`, `Operation`, `Host.after`,
`Host.Opening`, `Behaviour`, `Behaviour.reports`, `Behaviour.Agree`.
Key theorems: `Instance.perform_env`, `Instance.perform_outcome`,
`Catalogue.instantiate_eq_ok`, `Host.use_of_some`, `Host.handle_use_ne`,
`Host.openInstance_opening`, `Behaviour.Agree.reports`.
-/
import OffsetGaps.Host.Handle
import OffsetGaps.Proofs.Supply

namespace OffsetGaps

/-- What a caller does with an open instance. A call is made in a context of
the caller's that may have been cancelled. -/
inductive Use where
  | update (cancelled : Bool) (args : List Value)
  | finalize (cancelled : Bool)
  | discard
  | functionOf

inductive UseReport where
  | updated (outcome : Outcome Unit)
  | finalized (outcome : Outcome Value)
  | discarded (found : Bool)
  | function (name : Option String)

/-- Whether a use gives up the identifier. -/
def Use.releases : Use → Bool
  | .update _ _ => false
  | .finalize _ => true
  | .discard => true
  | .functionOf => false

/-- An operation of a caller on a host. -/
inductive Operation where
  | openInstance (name : String)
  | openCount
  | use (id : String) (u : Use)

namespace Host

variable {σ : Type}

/-- The host as a call in a context of the caller's finds it. -/
def inContext (h : Host σ) (cancelled : Bool) : Host σ :=
  { h with ledger := { h.ledger with env := { h.ledger.env with cancelled } } }

def use (h : Host σ) (id : String) : Use → Host σ × UseReport
  | .update cancelled args =>
    (((h.inContext cancelled).update id args).1,
      .updated ((h.inContext cancelled).update id args).2)
  | .finalize cancelled =>
    (((h.inContext cancelled).finalize id).1, .finalized ((h.inContext cancelled).finalize id).2)
  | .discard => ((h.discard id).1, .discarded (h.discard id).2)
  | .functionOf => (h, .function (h.functionOf id))

def step (h : Host σ) : Operation → Host σ
  | .openInstance name => (h.openInstance name).1
  | .openCount => h
  | .use id u => (h.use id u).1

def after (h : Host σ) (ops : List Operation) : Host σ := ops.foldl step h

end Host

/-- What each call of an instance does to a state of the instance's own, made
in a context that may have been cancelled, and how it ends. -/
abbrev Behaviour (α : Type) := Bool → Call → α → α × Outcome Value

namespace Behaviour

variable {α β σ : Type}

/-- What a kernel does to the memory. -/
def ofKernel (k : Kernel σ) : Behaviour σ := fun cancelled call memory =>
  ((k call ⟨memory, cancelled⟩).1.memory, (k call ⟨memory, cancelled⟩).2)

/-- What an instance does to a ledger. -/
def ofInstance (inst : Instance σ) : Behaviour (Ledger σ) := fun cancelled call l =>
  inst.perform call { l with env := { l.env with cancelled } }

/-- Uses an instance directly. An instance that is discarded was there, and
its function is the one it was made by. -/
def use (b : Behaviour α) (name : String) (a : α) : Use → α × UseReport
  | .update cancelled args =>
    ((b cancelled (.update args) a).1, .updated ((b cancelled (.update args) a).2.map fun _ => ()))
  | .finalize cancelled => ((b cancelled .result a).1, .finalized (b cancelled .result a).2)
  | .discard => (a, .discarded true)
  | .functionOf => (a, .function (some name))

def after (b : Behaviour α) (name : String) (a : α) (uses : List Use) : α :=
  uses.foldl (fun a u => (b.use name a u).1) a

theorem after_append (b : Behaviour α) (name : String) (a : α) (uses uses' : List Use) :
    b.after name a (uses ++ uses') = b.after name (b.after name a uses) uses' :=
  List.foldl_append

def reports (b : Behaviour α) (name : String) : α → List Use → List UseReport
  | _, [] => []
  | a, u :: rest => (b.use name a u).2 :: reports b name (b.use name a u).1 rest

/-- Related states stay related and calls end alike. -/
def Agree (R : α → β → Prop) (b : Behaviour α) (b' : Behaviour β) : Prop :=
  ∀ cancelled call x y, R x y →
    R (b cancelled call x).1 (b' cancelled call y).1 ∧
      (b cancelled call x).2 = (b' cancelled call y).2

namespace Agree

variable {R : α → β → Prop} {b : Behaviour α} {b' : Behaviour β}

theorem use (h : Agree R b b') (name : String) {x : α} {y : β} (hxy : R x y) (u : Use) :
    R (b.use name x u).1 (b'.use name y u).1 ∧ (b.use name x u).2 = (b'.use name y u).2 := by
  cases u with
  | update cancelled args =>
    obtain ⟨hstate, hend⟩ := h cancelled (.update args) x y hxy
    exact ⟨hstate, by simp only [Behaviour.use, hend]⟩
  | finalize cancelled =>
    obtain ⟨hstate, hend⟩ := h cancelled .result x y hxy
    exact ⟨hstate, by simp only [Behaviour.use, hend]⟩
  | discard => exact ⟨hxy, rfl⟩
  | functionOf => exact ⟨hxy, rfl⟩

theorem after (h : Agree R b b') (name : String) : ∀ (uses : List Use) {x : α} {y : β}, R x y →
    R (b.after name x uses) (b'.after name y uses)
  | [], _, _, hxy => hxy
  | u :: rest, _, _, hxy => h.after name rest (h.use name hxy u).1

theorem reports (h : Agree R b b') (name : String) : ∀ (uses : List Use) {x : α} {y : β}, R x y →
    b.reports name x uses = b'.reports name y uses
  | [], _, _, _ => rfl
  | u :: rest, _, _, hxy => by
    rw [Behaviour.reports, Behaviour.reports, (h.use name hxy u).2,
      h.reports name rest (h.use name hxy u).1]

end Agree
end Behaviour

/-! ### Layers only watch -/

namespace Ledger

variable {σ : Type}

@[simp] theorem announce_env (layer : Layer) (call : Call) (l : Ledger σ) :
    (l.announce layer call).env = l.env := by
  cases layer <;> rfl

@[simp] theorem observe_env (layer : Layer) (call : Call) (outcome : Outcome Value) (l : Ledger σ) :
    (l.observe layer call outcome).env = l.env := by
  cases layer <;> cases outcome <;> cases call <;> rfl

/-- Calling a kernel through layers is calling the kernel. -/
theorem perform_eq (kernel : Kernel σ) : ∀ (layers : List Layer) (call : Call) (l : Ledger σ),
    (perform kernel layers call l).1.env = (kernel call l.env).1 ∧
      (perform kernel layers call l).2 = (kernel call l.env).2
  | [], _, _ => ⟨rfl, rfl⟩
  | layer :: inner, call, l => by
    have ih := perform_eq kernel inner call (l.announce layer call)
    rw [announce_env] at ih
    rw [perform]
    exact ⟨(observe_env _ _ _ _).trans ih.1, ih.2⟩

@[simp] theorem attach_env (function : String) (o : Observer) (l : Ledger σ) :
    (l.attach function o).2.env = l.env := by
  cases o <;> rfl

@[simp] theorem attachAll_env (function : String) : ∀ (observers : List Observer) (l : Ledger σ),
    (l.attachAll function observers).2.env = l.env
  | [], _ => rfl
  | o :: rest, l => by
    rw [attachAll]
    exact (attach_env _ _ _).trans (attachAll_env function rest l)

end Ledger

namespace Instance

variable {σ : Type}

theorem perform_env (inst : Instance σ) (call : Call) (l : Ledger σ) :
    (inst.perform call l).1.env = (inst.kernel call l.env).1 :=
  (Ledger.perform_eq inst.kernel inst.layers call l).1

theorem perform_outcome (inst : Instance σ) (call : Call) (l : Ledger σ) :
    (inst.perform call l).2 = (inst.kernel call l.env).2 :=
  (Ledger.perform_eq inst.kernel inst.layers call l).2

/-- An instance behaves as its kernel does. -/
theorem agree_kernel (inst : Instance σ) :
    Behaviour.Agree (fun (l : Ledger σ) m => l.env.memory = m) (.ofInstance inst)
      (.ofKernel inst.kernel) := by
  rintro cancelled call l _ rfl
  have henv := perform_env inst call { l with env := { l.env with cancelled } }
  exact ⟨congrArg Env.memory henv, perform_outcome inst call _⟩

end Instance

namespace Catalogue

variable {σ : Type} {c : Catalogue σ} {name : String}

/-- What is found under a name was registered under it. -/
theorem mem_of_find {f : Function σ} (h : c.find? name = some f) : (name, f) ∈ c.entries := by
  obtain ⟨before, behind, hsplit, -⟩ := List.lookup_eq_some_iff.mp h
  rw [hsplit]
  exact List.mem_append_right _ List.mem_cons_self

/-- Making an instance runs the constructor, and nothing else touches the
environment. -/
theorem instantiate_of_find {f : Function σ} (hf : c.find? name = some f) (l : Ledger σ) :
    ∃ inst l', c.instantiate name l = .ok (inst, l') ∧
      inst.kernel = (f.create l.env.memory).1 ∧
      l'.env = { l.env with memory := (f.create l.env.memory).2 } := by
  unfold instantiate
  rw [hf]
  exact ⟨_, _, rfl, rfl, Ledger.attachAll_env _ _ _⟩

theorem instantiate_eq_ok {l l' : Ledger σ} {inst : Instance σ}
    (h : c.instantiate name l = .ok (inst, l')) :
    ∃ f, (name, f) ∈ c.entries ∧ c.find? name = some f ∧ inst.kernel = (f.create l.env.memory).1 ∧
      l'.env = { l.env with memory := (f.create l.env.memory).2 } := by
  cases hf : c.find? name with
  | none =>
    unfold instantiate at h
    rw [hf] at h
    cases h
  | some f =>
    obtain ⟨inst', l'', hok, hkernel, henv⟩ := instantiate_of_find hf l
    rw [h] at hok
    obtain ⟨rfl, rfl⟩ := Prod.mk.inj (Except.ok.inj hok)
    exact ⟨f, mem_of_find hf, rfl, hkernel, henv⟩

end Catalogue

/-! ### Operations and handles -/

namespace Host

variable {σ : Type} {h : Host σ} {id : String}

def memory (h : Host σ) : σ := h.ledger.env.memory

def openIds (h : Host σ) : List String := h.handles.map Prod.fst

/-- Every identifier is in use. -/
def Exhausted (h : Host σ) : Prop := ∀ b : Block, identifier b ∈ h.openIds

theorem mem_handles {handle : Handle σ} (hs : h.handle? id = some handle) :
    (id, handle) ∈ h.handles := by
  obtain ⟨l₁, l₂, heq, -⟩ := List.lookup_eq_some_iff.mp hs
  rw [heq]
  simp

theorem handle_release_ne {i : String} (hne : i ≠ id) : (h.release id).handle? i = h.handle? i := by
  show (h.handles.filter fun entry => entry.1 != id).lookup i = h.handles.lookup i
  induction h.handles with
  | nil => rfl
  | cons entry rest ih =>
    obtain ⟨key, handle⟩ := entry
    by_cases hkey : key = id
    · subst hkey
      have hi : (i == key) = false := by simpa using hne
      rw [List.filter_cons_of_neg (by simp), List.lookup_cons, hi, ih]
    · rw [List.filter_cons_of_pos (by simpa using hkey), List.lookup_cons, List.lookup_cons, ih]

theorem handles_release_subset {e : String × Handle σ} (he : e ∈ (h.release id).handles) :
    e ∈ h.handles :=
  (List.mem_filter.mp he).1

/-- A use of an open instance is a use of its kernel. -/
theorem use_of_some {name : String} {inst : Instance σ} (hs : h.handle? id = some ⟨name, inst⟩)
    (u : Use) :
    (h.use id u).1.memory = ((Behaviour.ofKernel inst.kernel).use name h.memory u).1 ∧
      (h.use id u).2 = ((Behaviour.ofKernel inst.kernel).use name h.memory u).2 := by
  have hs' : ∀ cancelled, (h.inContext cancelled).handle? id = some ⟨name, inst⟩ := fun _ => hs
  cases u with
  | update cancelled args =>
    simp only [use, update, hs', perform, memory, Instance.perform_env, Instance.perform_outcome]
    exact ⟨rfl, rfl⟩
  | finalize cancelled =>
    simp only [use, finalize, hs', perform, memory, Instance.perform_env, Instance.perform_outcome]
    exact ⟨rfl, rfl⟩
  | discard =>
    simp only [use, discard, hs, memory]
    exact ⟨rfl, rfl⟩
  | functionOf =>
    simp only [use, functionOf, hs, memory]
    exact ⟨rfl, rfl⟩

/-- A use of an identifier that is not open changes no memory. -/
theorem use_of_none (hn : h.handle? id = none) (u : Use) : (h.use id u).1.memory = h.memory := by
  have hn' : ∀ cancelled, (h.inContext cancelled).handle? id = none := fun _ => hn
  cases u with
  | update cancelled args => simp only [use, update, hn']; rfl
  | finalize cancelled => simp only [use, finalize, hn']; rfl
  | discard => rfl
  | functionOf => rfl

/-- A use keeps the table, or takes its identifier out of it. -/
theorem use_handles (h : Host σ) (id : String) (u : Use) :
    (h.use id u).1.catalogue = h.catalogue ∧
      ((h.use id u).1.handles = h.handles ∨
        u.releases = true ∧ (h.use id u).1.handles = (h.release id).handles) := by
  cases u with
  | update cancelled args =>
    simp only [use, update]
    split
    · exact ⟨rfl, Or.inl rfl⟩
    · exact ⟨rfl, Or.inl rfl⟩
  | finalize cancelled =>
    simp only [use, finalize]
    split
    · exact ⟨rfl, Or.inl rfl⟩
    · exact ⟨rfl, Or.inr ⟨rfl, rfl⟩⟩
  | discard => exact ⟨rfl, Or.inr ⟨rfl, rfl⟩⟩
  | functionOf => exact ⟨rfl, Or.inl rfl⟩

theorem handle_use_ne {i : String} (hne : i ≠ id) (u : Use) :
    (h.use id u).1.handle? i = h.handle? i := by
  rcases (use_handles h id u).2 with heq | ⟨-, heq⟩
  · rw [handle?, heq]; rfl
  · rw [handle?, heq]; exact handle_release_ne hne

theorem handle_use_of_keeps {u : Use} (hu : u.releases = false) :
    (h.use id u).1.handle? id = h.handle? id := by
  rcases (use_handles h id u).2 with heq | ⟨hrel, -⟩
  · rw [handle?, heq]; rfl
  · rw [hu] at hrel; cases hrel

theorem handles_use_subset {u : Use} {e : String × Handle σ} (he : e ∈ (h.use id u).1.handles) :
    e ∈ h.handles := by
  rcases (use_handles h id u).2 with heq | ⟨-, heq⟩
  · rw [heq] at he; exact he
  · rw [heq] at he; exact handles_release_subset he

/-- What opening an instance can come to: the function is not registered, or
no identifier is left, or the kernel that the constructor gives stands in the
table under the first free identifier of the supply. -/
inductive Opening (h : Host σ) (name : String) : Host σ × Outcome String → Prop where
  | unknown (hfind : h.catalogue.find? name = none) :
    Opening h name (h, .failure (.unknownFunction name))
  | exhausted {f : Function σ} {ledger : Ledger σ} (hfind : h.catalogue.find? name = some f)
    (henv : ledger.env = { h.ledger.env with memory := (f.create h.memory).2 })
    (hall : h.Exhausted) : Opening h name ({ h with ledger }, .abort "no free identifier")
  | opened {f : Function σ} {ledger : Ledger σ} {inst : Instance σ} {supply : Supply} {n : ℕ}
    (hfind : h.catalogue.find? name = some f)
    (henv : ledger.env = { h.ledger.env with memory := (f.create h.memory).2 })
    (hkernel : inst.kernel = (f.create h.memory).1) (hfirst : h.supply.FirstFree h.openIds n)
    (hrest : ∀ m, supply.ids m = h.supply.ids (n + 1 + m)) :
    Opening h name
      ({ h with ledger, supply, handles := (h.supply.ids n, ⟨name, inst⟩) :: h.handles },
        .value (h.supply.ids n))

theorem openInstance_opening (h : Host σ) (name : String) : h.Opening name (h.openInstance name) := by
  unfold openInstance
  cases hinst : h.catalogue.instantiate name h.ledger with
  | error e =>
    unfold Catalogue.instantiate at hinst
    split at hinst
    · rename_i hfind
      obtain rfl := Except.error.inj hinst
      exact .unknown hfind
    · cases hinst
  | ok made =>
    obtain ⟨inst, ledger⟩ := made
    obtain ⟨f, -, hfind, hkernel, henv⟩ := Catalogue.instantiate_eq_ok hinst
    cases hdraw : h.supply.draw? (h.handles.map Prod.fst) with
    | none => exact .exhausted hfind henv (Supply.draw_eq_none hdraw)
    | some drawn =>
      obtain ⟨id, supply⟩ := drawn
      obtain ⟨n, hfirst, rfl, hrest⟩ := Supply.draw_eq_some hdraw
      exact .opened hfind henv hkernel hfirst hrest

/-- Opening an instance fails and changes nothing; or it runs a constructor
of the catalogue, and puts the kernel into the table under an identifier
that was not in use, if it found one. -/
theorem openInstance_cases (h : Host σ) (name : String) :
    h.openInstance name = (h, .failure (.unknownFunction name)) ∨
      ∃ f, (name, f) ∈ h.catalogue.entries ∧ h.catalogue.find? name = some f ∧
        (h.openInstance name).1.memory = (f.create h.memory).2 ∧
        (h.openInstance name).1.catalogue = h.catalogue ∧
        ((∃ text, (h.openInstance name).2 = .abort text ∧
            (h.openInstance name).1.handles = h.handles) ∨
          ∃ id inst, (h.openInstance name).2 = .value id ∧ id ∉ h.handles.map Prod.fst ∧
            inst.kernel = (f.create h.memory).1 ∧
            (h.openInstance name).1.handles = (id, ⟨name, inst⟩) :: h.handles) := by
  have hopening := h.openInstance_opening name
  generalize h.openInstance name = opened at hopening
  cases hopening with
  | unknown _ => exact Or.inl rfl
  | exhausted hfind henv _ =>
    exact Or.inr ⟨_, Catalogue.mem_of_find hfind, hfind, congrArg Env.memory henv, rfl,
      Or.inl ⟨_, rfl, rfl⟩⟩
  | opened hfind henv hkernel hfirst _ =>
    exact Or.inr ⟨_, Catalogue.mem_of_find hfind, hfind, congrArg Env.memory henv, rfl,
      Or.inr ⟨_, _, rfl, hfirst.free, hkernel, rfl⟩⟩

theorem step_catalogue (h : Host σ) (op : Operation) : (h.step op).catalogue = h.catalogue := by
  cases op with
  | openInstance name =>
    show (h.openInstance name).1.catalogue = h.catalogue
    rcases openInstance_cases h name with heq | ⟨_, _, _, _, hcat, _⟩
    · rw [heq]
    · exact hcat
  | openCount => rfl
  | use id u => exact (use_handles h id u).1

/-- An instance of a registered function opens if there is an identifier. -/
theorem openInstance_value {f : Function σ} {name : String} (hf : h.catalogue.find? name = some f)
    (hid : (h.supply.draw? (h.handles.map Prod.fst)).map Prod.fst = some id) :
    (h.openInstance name).2 = .value id := by
  obtain ⟨inst, ledger, hok, -, -⟩ := Catalogue.instantiate_of_find hf h.ledger
  obtain ⟨⟨_, supply⟩, hdraw, rfl⟩ := Option.map_eq_some_iff.mp hid
  simp only [openInstance, hok, hdraw]

end Host
end OffsetGaps
