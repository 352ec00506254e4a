import TemplateExpr.Value.Basic
/-!
One evaluation as it goes on: whether it has been cancelled, how long it has lasted, what has happened in it,
and the state of the host program, on which the bodies of functions act. A failure keeps the run.
-/
namespace TemplateExpr

inductive Event where
  | checkpoint
  | call (name : String) (arguments : List Value)
  deriving DecidableEq

structure Run (σ : Type) where
  host : σ
  cancelled : Bool := false
  /-- In nanoseconds. -/
  elapsed : Nat := 0
  limit : Option Nat := none
  /-- The latest first. -/
  events : List Event := []

abbrev Eval (σ α : Type) : Type := EStateM Error (Run σ) α

namespace Run

variable {σ α : Type}

def overdue (run : Run σ) : Bool := run.limit.any fun limit => limit < run.elapsed

/-- The timeout is reported in whole seconds. -/
def timeout (run : Run σ) : Error := .timeout (run.limit.getD 0 / 1000000000)

def lift : Except Error α → Eval σ α
  | .ok a => pure a
  | .error e => throw e

def checkpoint : Eval σ Unit := fun run =>
  let run := { run with events := .checkpoint :: run.events }
  if run.cancelled then .error .interrupted run else .ok () run

end Run

end TemplateExpr
