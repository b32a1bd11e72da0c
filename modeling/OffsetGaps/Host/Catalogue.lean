/-
# The catalogue of aggregation functions

Functions are registered under their qualified names; the first one with a
name keeps it. Making an instance runs the function's constructor and puts
the catalogue's observers around the kernel. An aggregation makes an
instance, feeds it rows one by one and asks for the result; before each row
it looks whether the caller has cancelled.

Key definitions: `Descriptor`, `Catalogue.register`, `Catalogue.find?`,
`Catalogue.functions`, `Catalogue.instantiate`, `Catalogue.aggregate`.
-/
import OffsetGaps.Host.Observer

namespace OffsetGaps

structure Descriptor where
  /-- The namespace, or nothing. -/
  scope : String := ""
  name : String := ""
  description : String := ""
  params : List Param := []
  returns : DataType := .other 0
deriving DecidableEq, Repr

namespace Descriptor

/-- The name with its namespace in front, if it has one. -/
def qualifiedName (d : Descriptor) : String :=
  if d.scope.isEmpty then d.name else d.scope ++ "." ++ d.name

/-- The name with parameters and result type. -/
def signature (d : Descriptor) : String :=
  d.qualifiedName ++ "(" ++ String.intercalate ", " (d.params.map Param.text) ++ ") :: " ++
    d.returns.name

end Descriptor

/-- A constructor of instances: it may prepare the memory and gives a
kernel. -/
abbrev Constructor (σ : Type) := σ → Kernel σ × σ

structure Function (σ : Type) where
  descriptor : Descriptor
  create : Constructor σ

structure Catalogue (σ : Type) where
  /-- The functions under the names of their registration, in its order. -/
  entries : List (String × Function σ) := []
  /-- The observers around each instance, the outermost first. -/
  observers : List Observer := []
  /-- Whether registrations are logged. -/
  announces : Bool := true

namespace Catalogue

variable {σ : Type}

/-- The function that was registered under a name. -/
def find? (c : Catalogue σ) (name : String) : Option (Function σ) := c.entries.lookup name

def lookup (c : Catalogue σ) (name : String) : Except HostError (Function σ) :=
  match c.find? name with
  | some f => .ok f
  | none => .error (.unknownFunction name)

/-- Registers a function, if it has a name and a constructor and its
qualified name is free. -/
def register (c : Catalogue σ) (d : Descriptor) (create : Option (Constructor σ)) :
    Except HostError (Catalogue σ) :=
  match create with
  | none => .error (.invalidFunction d.qualifiedName)
  | some create =>
    if d.name.isEmpty then .error (.invalidFunction d.qualifiedName)
    else if (c.find? d.qualifiedName).isSome then .error (.duplicateFunction d.qualifiedName)
    else .ok { c with entries := c.entries ++ [(d.qualifiedName, ⟨d, create⟩)] }

def registrationRecord (d : Descriptor) : LogRecord :=
  { level := .debug
    message := "registered aggregation function"
    attributes := [("function", .text d.qualifiedName), ("signature", .text d.signature)] }

/-- The functions in the byte order of their qualified names. -/
def functions (c : Catalogue σ) : List (Function σ) :=
  (c.entries.map Prod.snd).mergeSort fun f g =>
    f.descriptor.qualifiedName ≤ g.descriptor.qualifiedName

def instantiate (c : Catalogue σ) (name : String) (l : Ledger σ) :
    Except HostError (Instance σ × Ledger σ) :=
  match c.find? name with
  | none => .error (.unknownFunction name)
  | some f =>
    let (kernel, memory) := f.create l.env.memory
    let (layers, l) := { l with env := { l.env with memory } }.attachAll name c.observers
    .ok (⟨kernel, layers⟩, l)

end Catalogue

namespace Instance

variable {σ : Type}

/-- Feeds rows, numbered from `index`, and asks for the result. -/
def drive (inst : Instance σ) : Nat → List (List Value) → Ledger σ → Ledger σ × Outcome Value
  | _, [], l => inst.perform .result l
  | index, row :: rest, l =>
    if l.env.cancelled then (l, .failure .cancelled)
    else
      match inst.perform (.update row) l with
      | (l, .value _) => drive inst (index + 1) rest l
      | (l, .failure e) => (l, .failure (.row index e))
      | (l, .abort text) => (l, .abort text)

end Instance

namespace Catalogue

variable {σ : Type}

/-- Aggregates rows with a fresh instance of a function. -/
def aggregate (c : Catalogue σ) (name : String) (rows : List (List Value)) (l : Ledger σ) :
    Ledger σ × Outcome Value :=
  match c.instantiate name l with
  | .error e => (l, .failure e)
  | .ok (inst, l) => inst.drive 0 rows l

/-- Aggregates values, each a row of its own. -/
def aggregateColumn (c : Catalogue σ) (name : String) (values : List Value) (l : Ledger σ) :
    Ledger σ × Outcome Value :=
  c.aggregate name (values.map fun v => [v]) l

end Catalogue
end OffsetGaps
