import TemplateExpr.Proofs.Evaluation.Simulation
import TemplateExpr.Session
/-!
Functions without a memory. If no function of a context answers by what the host program has come to, then no
evaluation does: its value or its failure is the same from any state of the host. The standard functions are of
this sort, at any one time.
-/
namespace TemplateExpr

variable {σ : Type}

/-- What the function does does not depend on the host program. It may still change it. -/
structure Function.Stateless (f : Function σ) : Prop where
  replies : ∀ arguments host host',
    ∃ left, f.body arguments host' = { f.body arguments host with host := left }
  provides : ∀ parameter ∈ f.parameters, ∀ provide, parameter.fallback = some (.computed provide) →
    ∀ host host', (provide host').1 = (provide host).1

def Registry.Stateless (registry : Registry σ) : Prop := ∀ f ∈ registry.functions, f.Stateless

def Rehosted (r q : Run σ) : Prop := ∃ host, q = { r with host }

/-- Nothing that a computation does shows the host. -/
def Hostless {α : Type} (m : Eval σ α) : Prop := Simulates (fun _ => False) Rehosted m m

theorem timed_rehosted : Timed (Rehosted (σ := σ)) := by
  constructor
  · rintro r _ ⟨host, rfl⟩
    rfl
  · rintro r _ ⟨host, rfl⟩
    rfl

theorem outcome_hostless {α : Type} {m : Eval σ α} {r q : Run σ} (hostless : Hostless m)
    (runs : Rehosted r q) : m.outcome r = m.outcome q := by
  rcases hostless r q runs with ⟨e, s, stops, _⟩ | alike
  · exact stops.elim
  · exact outcome_of_alike alike

theorem hostless_checkpoint : Hostless (Run.checkpoint (σ := σ)) := by
  rintro r _ ⟨host, rfl⟩
  cases flag : r.cancelled
  all_goals
    simp only [Run.checkpoint, flag]
    first
    | exact .inr (.ok () ⟨host, rfl⟩)
    | exact .inr (.error _ ⟨host, rfl⟩)

section Calls

variable {f : Function σ}

theorem hostless_provide (stateless : f.Stateless) (index : Nat) {parameter : Parameter σ}
    (mem : parameter ∈ f.parameters) : Hostless (f.provide index parameter) := by
  rintro r _ ⟨host, rfl⟩
  right
  unfold Function.provide
  cases fallback : parameter.fallback with
  | none => exact .error _ ⟨host, rfl⟩
  | some source =>
    cases source with
    | constant v => exact .ok v ⟨host, rfl⟩
    | computed provide =>
      dsimp only
      rw [stateless.provides parameter mem provide fallback r.host host]
      exact .ok _ ⟨(provide host).2, rfl⟩

theorem hostless_invoke (stateless : f.Stateless) (values : List Value) : Hostless (f.invoke values) := by
  change Simulates _ Rehosted (f.invoke values) ((f.withBody f.body).invoke values)
  apply simulates_call timed_rehosted
  · rintro r q arguments -
    obtain ⟨left, same⟩ := stateless.replies arguments r.host q.host
    rw [same]
  · rintro r _ arguments ⟨host, rfl⟩
    obtain ⟨left, same⟩ := stateless.replies arguments r.host host
    refine ⟨left, ?_⟩
    simp only [Run.performed, Function.withBody, same]
  · intro index parameter mem
    exact hostless_provide stateless index mem

end Calls

theorem hostless_eval {on : Surroundings σ} (stateless : on.registry.Stateless) (e : Expr) :
    Hostless (e.eval on) := by
  refine simulates_eval hostless_checkpoint (fun name values => ?_) e
  unfold Registry.invoke
  cases found : on.registry.get? name with
  | none => exact simulates_lift (.error _)
  | some f => exact hostless_invoke (stateless f (List.mem_of_find?_eq_some found)) values

theorem evaluate_stateless {session session' : Session σ} (stateless : session.context.registry.Stateless)
    (same : session'.context = session.context) (expression : Expression) (symbols : Symbols) :
    (session'.evaluate expression symbols).1 = (session.evaluate expression symbols).1 := by
  change (session'.runIn expression symbols { host := session'.host, limit := session'.context.timeLimit }).1 =
    (session.runIn expression symbols { host := session.host, limit := session.context.timeLimit }).1
  rw [Session.runIn_eq, Session.runIn_eq, Session.surroundings, Session.surroundings, same]
  have hostless : Hostless (expression.root.eval (session.surroundings symbols)) := hostless_eval stateless _
  have rehosted : Rehosted { host := session.host, limit := session.context.timeLimit }
      { host := session'.host, limit := session.context.timeLimit } := ⟨session'.host, rfl⟩
  exact (outcome_hostless hostless rehosted).symm

section Standard

theorem stateless_answering {f : Function σ} (answer : List Value → Outcome)
    (body : f.body = Standard.answering answer)
    (constants : ∀ parameter ∈ f.parameters, ∀ provide, parameter.fallback ≠ some (.computed provide)) :
    f.Stateless := by
  constructor
  · intro arguments host host'
    rw [body]
    exact ⟨host', rfl⟩
  · intro parameter mem provide fallback
    exact absurd fallback (constants parameter mem provide)

theorem mem_registerAll {registry : Registry σ} {functions : List (Function σ)} {f : Function σ}
    (mem : f ∈ (registry.registerAll functions).functions) : f ∈ registry.functions ∨ f ∈ functions := by
  induction functions generalizing registry with
  | nil => exact .inl mem
  | cons g functions ih =>
    rcases ih mem with earlier | later
    · rcases List.mem_append.mp earlier with kept | new
      · exact .inl (List.mem_filter.mp kept).1
      · exact .inr (List.mem_cons.mpr (.inl (List.mem_singleton.mp new)))
    · exact .inr (List.mem_cons_of_mem _ later)

theorem stateless_functions (clock : Timestamp) : ∀ f ∈ Standard.functions (σ := σ) clock, f.Stateless := by
  simp only [Standard.functions, List.forall_mem_cons]
  and_intros
  all_goals first
    | exact stateless_answering _ rfl (by simp [Standard.required, Standard.optional])
    | simp

theorem stateless_standard (clock : Timestamp) : (Standard.registry (σ := σ) clock).Stateless := by
  intro f mem
  rcases mem_registerAll mem with none | listed
  · cases none
  · exact stateless_functions clock f listed

end Standard

end TemplateExpr
