/-
# Hosts and their open instances

A host keeps a catalogue and a table of open instances, each under an
identifier that the host chose. An open instance takes rows until it is
finalized or discarded; both release the identifier, and finalizing does so
before the result is computed, so a result that fails or is aborted releases
it too. Operations on an identifier that is not open change nothing.

Key definitions: `Handle`, `Host`, `Host.register`, `Host.openInstance`,
`Host.update`, `Host.finalize`, `Host.discard`, `Host.functionOf`,
`Host.cancel`.
-/
import OffsetGaps.Host.Catalogue
import OffsetGaps.Host.Identifier

namespace OffsetGaps

structure Handle (σ : Type) where
  /-- The name under which the function was asked for. -/
  function : String
  inst : Instance σ

/-- A catalogue, the open instances and all that they can change. -/
structure Host (σ : Type) where
  catalogue : Catalogue σ
  ledger : Ledger σ
  /-- The open instances, the latest first. -/
  handles : List (String × Handle σ) := []
  supply : Supply := {}
  /-- The words in which the decoder of commands refuses a line. -/
  complaint : List Char → String := fun _ => ""

namespace Host

variable {σ : Type}

def handle? (h : Host σ) (id : String) : Option (Handle σ) := h.handles.lookup id

def openCount (h : Host σ) : Nat := h.handles.length

/-- The host without what an identifier stands for. -/
def release (h : Host σ) (id : String) : Host σ :=
  { h with handles := h.handles.filter fun entry => entry.1 != id }

def register (h : Host σ) (d : Descriptor) (create : Option (Constructor σ)) :
    Host σ × Outcome Unit :=
  match h.catalogue.register d create with
  | .error e => (h, .failure e)
  | .ok catalogue =>
    let log :=
      if catalogue.announces then h.ledger.log.push (Catalogue.registrationRecord d)
      else h.ledger.log
    ({ h with catalogue, ledger := { h.ledger with log } }, .value ())

/-- Makes an instance that no identifier stands for. -/
def instantiate (h : Host σ) (name : String) : Host σ × Outcome (Instance σ) :=
  match h.catalogue.instantiate name h.ledger with
  | .error e => (h, .failure e)
  | .ok (inst, ledger) => ({ h with ledger }, .value inst)

def perform (h : Host σ) (inst : Instance σ) (call : Call) : Host σ × Outcome Value :=
  let (ledger, outcome) := inst.perform call h.ledger
  ({ h with ledger }, outcome)

def aggregate (h : Host σ) (name : String) (rows : List (List Value)) :
    Host σ × Outcome Value :=
  let (ledger, outcome) := h.catalogue.aggregate name rows h.ledger
  ({ h with ledger }, outcome)

def aggregateColumn (h : Host σ) (name : String) (values : List Value) :
    Host σ × Outcome Value :=
  let (ledger, outcome) := h.catalogue.aggregateColumn name values h.ledger
  ({ h with ledger }, outcome)

/-- Opens an instance of a function under the first free identifier. -/
def openInstance (h : Host σ) (name : String) : Host σ × Outcome String :=
  match h.catalogue.instantiate name h.ledger with
  | .error e => (h, .failure e)
  | .ok (inst, ledger) =>
    match h.supply.draw? (h.handles.map Prod.fst) with
    | some (id, supply) =>
      ({ h with ledger, supply, handles := (id, ⟨name, inst⟩) :: h.handles }, .value id)
    | none => ({ h with ledger }, .abort "no free identifier")

def update (h : Host σ) (id : String) (args : List Value) : Host σ × Outcome Unit :=
  match h.handle? id with
  | none => (h, .failure (.unknownInstance id))
  | some handle =>
    let (h, outcome) := h.perform handle.inst (.update args)
    (h, outcome.map fun _ => ())

/-- Closes an open instance and asks for its result. -/
def finalize (h : Host σ) (id : String) : Host σ × Outcome Value :=
  match h.handle? id with
  | none => (h, .failure (.unknownInstance id))
  | some handle => (h.release id).perform handle.inst .result

/-- Closes an open instance; says whether there was one. -/
def discard (h : Host σ) (id : String) : Host σ × Bool :=
  (h.release id, (h.handle? id).isSome)

/-- Cancels on behalf of the caller, for good. -/
def cancel (h : Host σ) : Host σ :=
  { h with ledger := { h.ledger with env := { h.ledger.env with cancelled := true } } }

/-- The host with an empty log and an empty trace. -/
def clearRecords (h : Host σ) : Host σ :=
  { h with ledger := { h.ledger with log := #[], trace := #[] } }

/-- The name that an open instance's function was asked for by. -/
def functionOf (h : Host σ) (id : String) : Option String :=
  (h.handle? id).map Handle.function

end Host
end OffsetGaps
