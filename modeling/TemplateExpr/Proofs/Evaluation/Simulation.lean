import TemplateExpr.Proofs.Evaluation.Lockstep
import TemplateExpr.Proofs.Evaluation.Outcomes
import TemplateExpr.Proofs.Function.Calls
/-!
Runs that are simulated by others. Two computations from related runs end alike, in related runs again, unless
the first one stops early. Evaluation among functions is simulated by evaluation among functions with other
bodies, if that is so of checks for cancellation, of omitted arguments and of the bodies.
-/
namespace TemplateExpr

variable {σ α β : Type}

inductive Alike (related : Run σ → Run σ → Prop) :
    EStateM.Result Error (Run σ) α → EStateM.Result Error (Run σ) α → Prop where
  | ok (a : α) {r q : Run σ} (runs : related r q) : Alike related (.ok a r) (.ok a q)
  | error (e : Error) {r q : Run σ} (runs : related r q) : Alike related (.error e r) (.error e q)

theorem outcome_of_alike {related : Run σ → Run σ → Prop} {m m' : Eval σ α} {r q : Run σ}
    (alike : Alike related (m r) (m' q)) : m.outcome r = m'.outcome q := by
  unfold Eval.outcome
  generalize m r = x, m' q = y at alike
  cases alike <;> rfl

/-- From related runs `m` stops, or else ends as `m'` does. -/
def Simulates (stops : Error → Prop) (related : Run σ → Run σ → Prop) (m m' : Eval σ α) : Prop :=
  ∀ r q, related r q → (∃ e s, stops e ∧ m r = .error e s) ∨ Alike related (m r) (m' q)

variable {stops : Error → Prop} {related : Run σ → Run σ → Prop}

theorem simulates_lift (result : Except Error α) :
    Simulates stops related (Run.lift result) (Run.lift result) := by
  intro r q runs
  cases result with
  | ok a => exact .inr (.ok a runs)
  | error e => exact .inr (.error e runs)

theorem simulates_bind {m m' : Eval σ α} {f f' : α → Eval σ β} (first : Simulates stops related m m')
    (rest : ∀ a, Simulates stops related (f a) (f' a)) : Simulates stops related (m >>= f) (m' >>= f') := by
  intro r q runs
  change (∃ e s, stops e ∧ EStateM.bind m f r = .error e s) ∨
    Alike related (EStateM.bind m f r) (EStateM.bind m' f' q)
  unfold EStateM.bind
  rcases first r q runs with ⟨e, s, stop, halts⟩ | alike
  · rw [halts]
    exact .inl ⟨e, s, stop, rfl⟩
  · generalize m r = x, m' q = y at alike
    cases alike with
    | ok a runs => exact rest a _ _ runs
    | error e runs => exact .inr (.error e runs)

theorem simulates_pure (a : α) : Simulates stops related (pure a : Eval σ α) (pure a) :=
  simulates_lift (.ok a)

structure Timed (related : Run σ → Run σ → Prop) : Prop where
  elapsed : ∀ {r q}, related r q → q.elapsed = r.elapsed
  limit : ∀ {r q}, related r q → q.limit = r.limit

/-- Runs are related only if they have the same host and the same clock, whatever the host is. -/
structure Synchronous (related : Run σ → Run σ → Prop) : Prop where
  host : ∀ {r q}, related r q → q.host = r.host
  elapsed : ∀ {r q}, related r q → q.elapsed = r.elapsed
  limit : ∀ {r q}, related r q → q.limit = r.limit
  provided : ∀ {r q} host, related r q → related { r with host } { q with host }

section Functions

variable {f : Function σ} {body : List Value → σ → Reply σ}

def Function.withBody (f : Function σ) (body : List Value → σ → Reply σ) : Function σ := { f with body }

theorem coerceTail_withBody (index : Nat) (values : List Value) :
    (f.withBody body).coerceTail index values = f.coerceTail index values := by
  induction values generalizing index with
  | nil => rfl
  | cons v values ih =>
    simp only [Function.coerceTail, ih]
    rfl

theorem simulates_marshal (index : Nat) (parameters : List (Parameter σ)) (values : List Value)
    (provides : ∀ index, ∀ parameter ∈ parameters,
      Simulates stops related (f.provide index parameter) (f.provide index parameter)) :
    Simulates stops related (f.marshal index parameters values)
      ((f.withBody body).marshal index parameters values) := by
  induction parameters generalizing index values with
  | nil =>
    rw [Function.marshal, Function.marshal, coerceTail_withBody]
    exact simulates_lift _
  | cons parameter parameters ih =>
    have later (index : Nat) (values : List Value) :=
      ih index values fun index p mem => provides index p (List.mem_cons_of_mem _ mem)
    cases values with
    | nil =>
      rw [Function.marshal, Function.marshal]
      refine simulates_bind (provides index parameter List.mem_cons_self) fun v => ?_
      refine simulates_bind (simulates_lift _) fun v => ?_
      exact simulates_bind (later _ _) fun vs => simulates_pure _
    | cons v values =>
      rw [Function.marshal, Function.marshal]
      refine simulates_bind (simulates_lift _) fun v => ?_
      exact simulates_bind (later _ _) fun vs => simulates_pure _

section Bodies

variable (timed : Timed related)
  (outcomes : ∀ r q arguments, related r q →
    (body arguments q.host).outcome = (f.body arguments r.host).outcome)
  (performed : ∀ r q arguments, related r q →
    related (r.performed f arguments) (q.performed (f.withBody body) arguments))

include timed outcomes performed

theorem simulates_perform (arguments : List Value) :
    Simulates stops related (f.perform arguments) ((f.withBody body).perform arguments) := by
  intro r q runs
  have later := performed r q arguments runs
  have overdue : (q.performed (f.withBody body) arguments).overdue = (r.performed f arguments).overdue := by
    rw [Run.overdue, Run.overdue, timed.limit later, timed.elapsed later]
  have timeout : (q.performed (f.withBody body) arguments).timeout = (r.performed f arguments).timeout := by
    rw [Run.timeout, Run.timeout, timed.limit later]
  have outcome : ((f.withBody body).body arguments q.host).outcome = (f.body arguments r.host).outcome :=
    outcomes r q arguments runs
  rw [Function.perform_eq, Function.perform_eq, overdue, timeout, outcome]
  split
  · exact .inr (.error _ later)
  · exact simulates_lift _ _ _ later

theorem simulates_call (values : List Value)
    (provides : ∀ index, ∀ parameter ∈ f.parameters,
      Simulates stops related (f.provide index parameter) (f.provide index parameter)) :
    Simulates stops related (f.invoke values) ((f.withBody body).invoke values) := by
  refine simulates_bind (simulates_lift _) fun _ => ?_
  refine simulates_bind (simulates_marshal _ _ _ provides) fun arguments => ?_
  exact simulates_bind (simulates_perform timed outcomes performed arguments) fun v => simulates_lift _

end Bodies

section Synchrony

variable (synchronous : Synchronous related)

include synchronous

theorem simulates_provide (index : Nat) (parameter : Parameter σ) :
    Simulates stops related (f.provide index parameter) (f.provide index parameter) := by
  intro r q runs
  right
  unfold Function.provide
  cases parameter.fallback with
  | none => exact .error _ runs
  | some fallback =>
    cases fallback with
    | constant v => exact .ok v runs
    | computed provide =>
      dsimp only
      rw [synchronous.host runs]
      exact .ok _ (synchronous.provided _ runs)

theorem simulates_invoke
    (outcomes : ∀ arguments host, (body arguments host).outcome = (f.body arguments host).outcome)
    (performed : ∀ r q arguments, related r q →
      related (r.performed f arguments) (q.performed (f.withBody body) arguments)) (values : List Value) :
    Simulates stops related (f.invoke values) ((f.withBody body).invoke values) := by
  apply simulates_call ⟨synchronous.elapsed, synchronous.limit⟩ _ performed
  · intro index parameter _
    exact simulates_provide synchronous index parameter
  · intro r q arguments runs
    rw [synchronous.host runs]
    exact outcomes arguments r.host

end Synchrony

end Functions

section Evaluation

variable {on : Surroundings σ} {others : Registry σ}
  (checks : Simulates stops related (Run.checkpoint (σ := σ)) Run.checkpoint)
  (invokes : ∀ name values,
    Simulates stops related (on.registry.invoke name values) (others.invoke name values))

include checks invokes

theorem simulates_play {e : Expr} {checked : Bool} {script script' : Script σ} {parts parts' : Nat → Executor σ}
    (steps : Script.Lockstep on others e checked script script')
    (values : ∀ i, Simulates stops related (parts i) (parts' i)) :
    Simulates stops related (script.play parts) (script'.play parts') := by
  induction steps with
  | finish result fails => exact simulates_lift result
  | @invoke name _ _ _ vs => exact invokes name vs
  | checkpoint guarded rest ih => exact simulates_bind checks fun _ => ih
  | ask i rest ih => exact simulates_bind (values i) ih

theorem simulates_eval (e : Expr) :
    Simulates stops related (e.eval on) (e.eval { on with registry := others }) := by
  induction e using Expr.part_induction with
  | step e ih =>
    rw [Expr.eval_eq_play, Expr.eval_eq_play]
    refine simulates_play checks invokes (Expr.lockstep_script on others e) fun i => ?_
    unfold Expr.parts
    cases found : e.part? i with
    | none => exact simulates_lift (.error .interrupted)
    | some part => exact ih i part found

end Evaluation

end TemplateExpr
