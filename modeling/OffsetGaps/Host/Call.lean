/-
# Calls of an aggregation instance

An instance is called with rows and at last for its result. A call returns a
value, fails with an error, or does not return at all: it is aborted, and
what it had changed up to then stays changed.

What an instance remembers is part of a memory `σ`, which all instances of a
host share or divide among themselves as they like; beside it stands whether
the caller has cancelled. A kernel is the behaviour of one instance: what
each call does to the memory, how it ends, and what it leaves in the arguments
of a row. These are handed on by everyone around the instance, not copied, so
what it writes to them is seen there. The arguments of different calls share
nothing.

Key definitions: `Call`, `Outcome`, `Env`, `Kernel`, `Kernel.left`.
-/
import OffsetGaps.Host.Error

namespace OffsetGaps

inductive Call where
  /-- Take a row. -/
  | update (args : List Value)
  /-- Give the result. -/
  | result
deriving Repr

def Call.name : Call → String
  | .update _ => "Update"
  | .result => "Result"

inductive Outcome (α : Type) where
  | value (a : α)
  | failure (e : HostError)
  /-- The call did not return. -/
  | abort (text : String)
deriving Repr

namespace Outcome

variable {α β : Type}

def map (f : α → β) : Outcome α → Outcome β
  | .value a => .value (f a)
  | .failure e => .failure e
  | .abort text => .abort text

/-- The outcome of a call that always returns. -/
def ofExcept : Except HostError α → Outcome α
  | .ok a => .value a
  | .error e => .failure e

end Outcome

/-- What the instances of a host remember, and whether the caller has
cancelled. -/
structure Env (σ : Type) where
  memory : σ
  cancelled : Bool := false

/-- The behaviour of an instance. A call for a row answers with null, and may
put other values in place of the arguments. -/
structure Kernel (σ : Type) where
  step : Call → Env σ → Env σ × Outcome Value
  written : Env σ → List Value → List Value := fun _ args => args
  length_written : ∀ env args, (written env args).length = args.length := by intros; rfl

namespace Kernel

variable {σ : Type}

/-- What a call does, and how it ends. -/
def run (k : Kernel σ) (call : Call) (env : Env σ) : Env σ × Outcome Value := k.step call env

instance : CoeFun (Kernel σ) fun _ => Call → Env σ → Env σ × Outcome Value := ⟨run⟩

/-- The call with its arguments as the instance leaves them. -/
def left (k : Kernel σ) (env : Env σ) : Call → Call
  | .update args => .update (k.written env args)
  | .result => .result

end Kernel

end OffsetGaps
