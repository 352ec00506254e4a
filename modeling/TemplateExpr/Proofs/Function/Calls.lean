import TemplateExpr.Function.Registry
/-!
A call in two steps: its arguments are made ready, and then the body is run on them. What else fails in a call
fails with a fault of the function.
-/
namespace TemplateExpr

variable {σ : Type}

def Run.performed (run : Run σ) (f : Function σ) (arguments : List Value) : Run σ :=
  let reply := f.body arguments run.host
  { run with
    host := reply.host
    cancelled := run.cancelled || reply.cancels
    elapsed := run.elapsed + reply.elapsed
    events := .call f.name arguments :: run.events }

namespace Function

def ready (f : Function σ) (values : List Value) : Eval σ (List Value) := do
  Run.lift ((f.checkArity values.length).mapError .function)
  f.marshal 1 f.parameters values

theorem invoke_eq (f : Function σ) (values : List Value) :
    f.invoke values = (do
      let arguments ← f.ready values
      let v ← f.perform arguments
      Run.lift (f.coerceResult v)) := by
  unfold invoke ready
  simp only [bind_assoc]

theorem perform_eq (f : Function σ) (arguments : List Value) (run : Run σ) :
    f.perform arguments run =
      if (run.performed f arguments).overdue then
        .error (run.performed f arguments).timeout (run.performed f arguments)
      else Run.lift ((f.body arguments run.host).outcome.result f.name) (run.performed f arguments) := by
  unfold perform
  dsimp only [Run.performed]
  congr 1
  cases (f.body arguments run.host).outcome.result f.name <;> rfl

def FailsCalling {α : Type} (result : Except Error α) : Prop :=
  ∀ x, result = .error x → ∃ fault, x = .function fault

theorem failsCalling_error {α : Type} (fault : FunctionFault) :
    FailsCalling (.error (.function fault) : Except Error α) := by
  intro x fails
  cases fails
  exact ⟨fault, rfl⟩

theorem failsCalling_ok {α : Type} (a : α) : FailsCalling (.ok a) := by
  intro x fails
  cases fails

theorem failsCalling_mapError {α ε : Type} (result : Except ε α) (fault : ε → FunctionFault) :
    FailsCalling (result.mapError fun e => .function (fault e)) := by
  cases result with
  | ok a => exact failsCalling_ok a
  | error e => exact failsCalling_error (fault e)

theorem failsCalling_bind {α β : Type} {x : Except Error α} {f : α → Except Error β} (first : FailsCalling x)
    (rest : ∀ a, FailsCalling (f a)) : FailsCalling (x >>= f) := by
  cases x with
  | ok a => exact rest a
  | error e =>
    obtain ⟨fault, rfl⟩ := first e rfl
    exact failsCalling_error fault

theorem failsCalling_arity (f : Function σ) (given : Nat) :
    FailsCalling ((f.checkArity given).mapError .function) :=
  failsCalling_mapError _ id

theorem failsCalling_coerce (f : Function σ) (index : Nat) (kind : Option Kind) (v : Value) :
    FailsCalling (f.coerce index kind v) := by
  cases kind with
  | none => exact failsCalling_ok v
  | some kind => exact failsCalling_mapError _ _

theorem failsCalling_coerceTail (f : Function σ) (index : Nat) (values : List Value) :
    FailsCalling (f.coerceTail index values) := by
  induction values generalizing index with
  | nil => exact failsCalling_ok []
  | cons v values ih =>
    rw [coerceTail]
    refine failsCalling_bind (failsCalling_coerce _ _ _ _) fun v => ?_
    exact failsCalling_bind (ih _) fun values => failsCalling_ok _

theorem failsCalling_coerceResult (f : Function σ) (v : Value) : FailsCalling (f.coerceResult v) := by
  unfold coerceResult
  cases f.returns with
  | none => exact failsCalling_ok v
  | some kind => exact failsCalling_mapError _ _

end Function

end TemplateExpr
