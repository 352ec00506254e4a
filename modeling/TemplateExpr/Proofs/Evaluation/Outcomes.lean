import TemplateExpr.Session
/-!
What a computation ends with, and the run that it leaves.
-/
namespace TemplateExpr

variable {σ α β : Type}

def Eval.outcome (m : Eval σ α) (run : Run σ) : Except Error α :=
  match m run with
  | .ok a _ => .ok a
  | .error e _ => .error e

def Eval.after (m : Eval σ α) (run : Run σ) : Run σ :=
  match m run with
  | .ok _ r => r
  | .error _ r => r

theorem Eval.outcome_of_error {m : Eval σ α} {r s : Run σ} {e : Error} (h : m r = .error e s) :
    m.outcome r = .error e := by
  rw [outcome, h]

theorem Eval.outcome_of_lift {m : Eval σ α} {r s : Run σ} {result : Except Error α}
    (h : m r = Run.lift result s) : m.outcome r = result := by
  rw [outcome, h]
  cases result <;> rfl

theorem Eval.error_of_outcome {m : Eval σ α} {r : Run σ} {e : Error} (h : m.outcome r = .error e) :
    ∃ s, m r = .error e s := by
  unfold outcome at h
  split at h
  · cases h
  · rename_i s done
    cases h
    exact ⟨s, done⟩

theorem Eval.outcome_bind {m : Eval σ α} {f : α → Eval σ β} {r s : Run σ} {a : α} (h : m r = .ok a s) :
    (m >>= f).outcome r = (f a).outcome s := by
  rw [outcome, run_bind h, outcome]

theorem Eval.outcome_map (m : Eval σ α) (f : α → β) (r : Run σ) :
    Eval.outcome (do return f (← m)) r = (m.outcome r).map f := by
  cases done : m r with
  | ok a s =>
    rw [outcome_bind done, outcome, outcome, done]
    rfl
  | error e s =>
    rw [outcome_of_error (run_bind_error done), outcome_of_error done]
    rfl

theorem Eval.after_of_ok {m : Eval σ α} {r s : Run σ} {a : α} (h : m r = .ok a s) : m.after r = s := by
  rw [after, h]

theorem Eval.after_bind {m : Eval σ α} {f : α → Eval σ β} {r s : Run σ} {a : α} (h : m r = .ok a s) :
    (m >>= f).after r = (f a).after s := by
  rw [after, run_bind h, after]

theorem Eval.after_bind_error {m : Eval σ α} {f : α → Eval σ β} {r s : Run σ} {e : Error}
    (h : m r = .error e s) : (m >>= f).after r = m.after r := by
  rw [after, after, run_bind_error h, h]

theorem Eval.after_lift (result : Except Error α) (run : Run σ) : (Run.lift result).after run = run := by
  cases result <;> rfl

namespace Session

variable (session : Session σ) (expression : Expression) (symbols : Symbols)

def surroundings : Surroundings σ := ⟨session.context.registry, session.context.math, symbols⟩

theorem runIn_eq (run : Run σ) :
    session.runIn expression symbols run =
      ((expression.root.eval (session.surroundings symbols)).outcome run,
        (expression.root.eval (session.surroundings symbols)).after run) := by
  unfold runIn Eval.outcome Eval.after surroundings
  dsimp only
  cases expression.root.eval ⟨session.context.registry, session.context.math, symbols⟩ run <;> rfl

variable {session : Session σ} {expression : Expression} {symbols : Symbols} {run r : Run σ}

theorem runIn_of_lift {result : Except Error Value}
    (ends : expression.root.eval (session.surroundings symbols) run = Run.lift result r) :
    session.runIn expression symbols run = (result, r) := by
  rw [runIn_eq, Eval.outcome_of_lift ends, Eval.after, ends]
  cases result <;> rfl

theorem runIn_of_error {e : Error}
    (ends : expression.root.eval (session.surroundings symbols) run = .error e r) :
    session.runIn expression symbols run = (.error e, r) :=
  @runIn_of_lift _ _ _ _ _ _ (.error e) ends

end Session

end TemplateExpr
