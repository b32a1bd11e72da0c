/-
# Scripted instances

An instance whose calls follow a script, for trying out hosts: a call does
what its part of the script says, and a part that is not written aborts the
call.

Key definitions: `UpdateScript`, `ResultScript`, `Script.constructor`.
-/
import OffsetGaps.Host.Catalogue

namespace OffsetGaps

/-- What taking a row does. -/
inductive UpdateScript where
  | accept
  /-- The caller is made to cancel, and the row is accepted. -/
  | cancel
  | fail (text : String)
deriving DecidableEq, Repr

/-- What giving the result does. -/
inductive ResultScript where
  | give (v : Value)
  | fail (text : String)
deriving Repr

structure Script where
  update : Option UpdateScript
  result : Option ResultScript
deriving Repr

namespace Script

variable {σ : Type}

def kernel (s : Script) : Kernel σ where
  step call env :=
    match call with
    | .update _ =>
      match s.update with
      | none => (env, .abort "InstanceStub.Update not implemented")
      | some .accept => (env, .value .null)
      | some .cancel => ({ env with cancelled := true }, .value .null)
      | some (.fail text) => (env, .failure (.custom text))
    | .result =>
      match s.result with
      | none => (env, .abort "InstanceStub.Result not implemented")
      | some (.give v) => (env, .value v)
      | some (.fail text) => (env, .failure (.custom text))

def constructor (s : Script) : Constructor σ := fun memory => (s.kernel, memory)

end Script
end OffsetGaps
