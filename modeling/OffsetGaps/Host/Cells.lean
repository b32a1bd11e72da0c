/-
# Instances with a cell of their own

The common memory of a host is an array of cells. A constructor of fresh
instances takes a new cell for each; a constructor of a shared instance
gives the same cell every time.

Key definitions: `Cells`, `Cells.kernel`, `Cells.reserve`, `Cells.fresh`,
`Cells.shared`.
-/
import OffsetGaps.Host.Catalogue

namespace OffsetGaps

abbrev Cells (α : Type) := Array α

namespace Cells

variable {α : Type}

/-- The instance that keeps its state in a cell and does in each call what
`step` says. -/
def kernel (step : Call → α → α × Outcome Value) (cell : Nat) : Kernel (Cells α) where
  step call env :=
    match env.memory[cell]? with
    | none => (env, .abort "no such cell")
    | some a =>
      let (a, outcome) := step call a
      ({ env with memory := env.memory.setIfInBounds cell a }, outcome)

theorem run_kernel {step : Call → α → α × Outcome Value} {cell : Nat} {env : Env (Cells α)} {a : α}
    (h : env.memory[cell]? = some a) (call : Call) :
    kernel step cell call env =
      ({ env with memory := env.memory.setIfInBounds cell (step call a).1 }, (step call a).2) := by
  simp only [Kernel.run, kernel, h]

def reserve (init : α) (memory : Cells α) : Nat × Cells α := (memory.size, memory.push init)

/-- A constructor that takes a new cell each time. -/
def fresh (init : α) (step : Call → α → α × Outcome Value) : Constructor (Cells α) :=
  fun memory =>
    let (cell, memory) := reserve init memory
    (kernel step cell, memory)

/-- A constructor that gives the instance of one cell every time. -/
def shared (cell : Nat) (step : Call → α → α × Outcome Value) : Constructor (Cells α) :=
  fun memory => (kernel step cell, memory)

end Cells
end OffsetGaps
