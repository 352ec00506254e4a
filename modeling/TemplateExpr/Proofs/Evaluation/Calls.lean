import TemplateExpr.Proofs.Evaluation.Lockstep
import TemplateExpr.Proofs.Evaluation.Outcomes
import TemplateExpr.Proofs.Function.Calls
/-!
The calls of an evaluation. A run keeps a mark of every body that is run in it, on top of those that it had by
then, so the calls of an evaluation can be read off the run that it leaves.
-/
namespace TemplateExpr

variable {σ α β : Type}

namespace Expr

def gather (on : Surroundings σ) (arguments : List Expr) : Eval σ (List Value) := do
  Run.checkpoint
  evalAll on arguments

theorem eval_call (on : Surroundings σ) (name : String) (position : Nat) (arguments : List Expr) :
    eval on (call name position arguments) = gather on arguments >>= on.registry.invoke name := by
  rw [eval, gather]
  simp only [bind_assoc]

/-- In the evaluation of an expression from a run, the body of `f` is run on `arguments`; `moment` is the run by
then. -/
inductive Invokes (on : Surroundings σ) : Expr → Run σ → Function σ → List Value → Run σ → Prop where
  | call {name : String} {position : Nat} {parts : List Expr} {run r moment : Run σ} {f : Function σ}
      {values arguments : List Value} (found : on.registry.get? name = some f)
      (gathered : gather on parts run = .ok values r) (ready : f.ready values r = .ok arguments moment) :
      Invokes on (call name position parts) run f arguments moment
  | within {e part : Expr} {run r moment : Run σ} {i : Nat} {f : Function σ} {arguments : List Value}
      (visited : (i, r) ∈ visits on e run) (found : e.part? i = some part)
      (inside : Invokes on part r f arguments moment) : Invokes on e run f arguments moment

end Expr

/-- What an evaluation that runs the bodies `invoked` may fail with. -/
inductive Explained (invoked : Function σ → List Value → Run σ → Prop) : Error → Prop where
  | native {x : Error} (native : x.Native) : Explained invoked x
  | interrupted : Explained invoked .interrupted
  | timeout (seconds : Nat) : Explained invoked (.timeout seconds)
  | function (fault : FunctionFault) : Explained invoked (.function fault)
  | body {f : Function σ} {arguments : List Value} {moment : Run σ} {x : Error}
      (holds : invoked f arguments moment)
      (fails : (f.body arguments moment.host).outcome.result f.name = .error x) : Explained invoked x

/-- From the run, `m` runs no other bodies than those `invoked`, and each of them leaves its mark on top of
those of its moment. What `m` fails with is explained if no look-back is out of range. -/
structure Accounts (invoked : Function σ → List Value → Run σ → Prop) (ranged : Prop) (m : Eval σ α)
    (run : Run σ) : Prop where
  limit : (m.after run).limit = run.limit
  grows : run.events <:+ (m.after run).events
  calls : ∀ front name arguments back, (m.after run).events = front ++ .call name arguments :: back →
    run.events <:+ back → ∃ f moment, invoked f arguments moment ∧ f.name = name ∧ moment.events = back
  failure : ranged → ∀ x r, m run = .error x r → Explained invoked x

section Accounts

variable {invoked : Function σ → List Value → Run σ → Prop} {ranged : Prop} {run : Run σ}

theorem not_suffix_of_append {front back : List Event} {event : Event} :
    ¬ front ++ event :: back <:+ back := by
  intro suffix
  have shorter := suffix.length_le
  simp at shorter
  omega

theorem accounts_quiet {m : Eval σ α} (limit : (m.after run).limit = run.limit)
    (events : (m.after run).events = run.events)
    (failure : ranged → ∀ x r, m run = .error x r → Explained invoked x) : Accounts invoked ranged m run := by
  constructor
  · exact limit
  · exact ⟨[], events.symm⟩
  · intro front name arguments back split new
    rw [events] at split
    rw [split] at new
    exact (not_suffix_of_append new).elim
  · exact failure

theorem accounts_lift {result : Except Error α}
    (fails : ranged → ∀ x, result = .error x → Explained invoked x) :
    Accounts invoked ranged (Run.lift result) run := by
  apply accounts_quiet
  · rw [Eval.after_lift]
  · rw [Eval.after_lift]
  · intro inRange x r ends
    cases result with
    | ok a => cases ends
    | error e =>
      cases ends
      exact fails inRange x rfl

theorem accounts_ok (a : α) : Accounts invoked ranged (Run.lift (.ok a)) run := by
  apply accounts_lift
  intro inRange x fails
  cases fails

theorem accounts_calling {result : Except Error α} (calling : Function.FailsCalling result) :
    Accounts invoked ranged (Run.lift result) run := by
  apply accounts_lift
  intro inRange x fails
  obtain ⟨fault, rfl⟩ := calling x fails
  exact .function fault

theorem accounts_checkpoint : Accounts invoked ranged (Run.checkpoint (σ := σ)) run := by
  have marked : (Run.checkpoint (σ := σ)).after run = { run with events := .checkpoint :: run.events } := by
    unfold Eval.after Run.checkpoint
    cases run.cancelled <;> rfl
  constructor
  · rw [marked]
  · rw [marked]
    exact List.suffix_cons _ _
  · intro front name arguments back split new
    rw [marked] at split
    cases front with
    | nil => cases split
    | cons event front =>
      rw [(List.cons.inj split).2] at new
      exact (not_suffix_of_append new).elim
  · intro inRange x r ends
    unfold Run.checkpoint at ends
    cases stop : run.cancelled <;> simp only [stop] at ends <;> cases ends
    exact .interrupted

theorem accounts_bind {m : Eval σ α} {f : α → Eval σ β} (first : Accounts invoked ranged m run)
    (rest : ∀ a r, m run = .ok a r → Accounts invoked ranged (f a) r) :
    Accounts invoked ranged (m >>= f) run := by
  cases done : m run with
  | error e r =>
    have same := Eval.after_bind_error (f := f) done
    constructor
    · rw [same]
      exact first.limit
    · rw [same]
      exact first.grows
    · rw [same]
      exact first.calls
    · intro inRange x s ends
      rw [run_bind_error done] at ends
      cases ends
      exact first.failure inRange e r done
  | ok a r =>
    have here := Eval.after_of_ok done
    have same := Eval.after_bind (f := f) done
    have second := rest a r done
    constructor
    · rw [same, second.limit, ← here, first.limit]
    · rw [same]
      exact (here ▸ first.grows).trans second.grows
    · intro front name arguments back split new
      rw [same] at split
      -- the mark was set by `m`, or on top of what `m` has left
      have mark : (.call name arguments :: back) <:+ ((f a).after r).events := ⟨front, split.symm⟩
      rcases List.suffix_or_suffix_of_suffix mark second.grows with ⟨front', split'⟩ | later
      · rw [← here] at split'
        exact first.calls front' name arguments back split'.symm new
      · rcases List.suffix_cons_iff.mp later with whole | later
        · rw [← here] at whole
          exact first.calls [] name arguments back whole new
        · exact second.calls front name arguments back split later
    · intro inRange x s ends
      rw [run_bind done] at ends
      exact second.failure inRange x s ends

theorem explained_mono {invoked' : Function σ → List Value → Run σ → Prop}
    (weaker : ∀ f arguments moment, invoked f arguments moment → invoked' f arguments moment) {x : Error}
    (explained : Explained invoked x) : Explained invoked' x := by
  cases explained with
  | native native => exact .native native
  | interrupted => exact .interrupted
  | timeout seconds => exact .timeout seconds
  | function fault => exact .function fault
  | body holds fails => exact .body (weaker _ _ _ holds) fails

theorem accounts_mono {invoked' : Function σ → List Value → Run σ → Prop} {ranged' : Prop} {m : Eval σ α}
    (account : Accounts invoked ranged m run)
    (weaker : ∀ f arguments moment, invoked f arguments moment → invoked' f arguments moment)
    (inRange : ranged' → ranged) : Accounts invoked' ranged' m run := by
  constructor
  · exact account.limit
  · exact account.grows
  · intro front name arguments back split new
    obtain ⟨f, moment, holds, rest⟩ := account.calls front name arguments back split new
    exact ⟨f, moment, weaker f arguments moment holds, rest⟩
  · intro inRange' x r ends
    exact explained_mono weaker (account.failure (inRange inRange') x r ends)

theorem after_perform (f : Function σ) (arguments : List Value) (run : Run σ) :
    (f.perform arguments).after run = run.performed f arguments := by
  rw [Eval.after, Function.perform_eq]
  by_cases late : (run.performed f arguments).overdue = true
  · simp only [late, if_true]
  · simp only [late]
    exact Eval.after_lift _ _

theorem accounts_perform {f : Function σ} {arguments : List Value} (holds : invoked f arguments run) :
    Accounts invoked ranged (f.perform arguments) run := by
  have left := after_perform f arguments run
  constructor
  · rw [left]
    rfl
  · rw [left]
    exact List.suffix_cons _ _
  · intro front name arguments' back split new
    rw [left] at split
    cases front with
    | nil =>
      cases split
      exact ⟨f, run, holds, rfl, rfl⟩
    | cons event front =>
      rw [(List.cons.inj split).2] at new
      exact (not_suffix_of_append new).elim
  · intro inRange x r ends
    rw [Function.perform_eq] at ends
    split at ends
    · cases ends
      exact .timeout _
    · cases fails : (f.body arguments run.host).outcome.result f.name with
      | ok v =>
        rw [fails] at ends
        cases ends
      | error e =>
        rw [fails] at ends
        cases ends
        exact .body holds fails

theorem accounts_provide (f : Function σ) (index : Nat) (parameter : Parameter σ) :
    Accounts invoked ranged (f.provide index parameter) run := by
  unfold Function.provide
  apply accounts_quiet
  · unfold Eval.after
    rcases parameter.fallback with _ | _ | _ <;> rfl
  · unfold Eval.after
    rcases parameter.fallback with _ | _ | _ <;> rfl
  · intro inRange x r ends
    split at ends
    · cases ends
    · cases ends
    · cases ends
      exact .function _

theorem accounts_marshal (f : Function σ) (index : Nat) (parameters : List (Parameter σ))
    (values : List Value) : Accounts invoked ranged (f.marshal index parameters values) run := by
  induction parameters generalizing index values run with
  | nil =>
    rw [Function.marshal]
    exact accounts_calling (f.failsCalling_coerceTail index values)
  | cons parameter parameters ih =>
    have coerces (v : Value) (r : Run σ) :
        Accounts invoked ranged (Run.lift (f.coerce index parameter.kind v)) r :=
      accounts_calling (f.failsCalling_coerce index parameter.kind v)
    cases values with
    | nil =>
      rw [Function.marshal]
      exact accounts_bind (accounts_provide f index parameter) fun v r _ =>
        accounts_bind (coerces v r) fun v r _ => accounts_bind (ih _ _) fun vs r _ => accounts_ok _
    | cons v values =>
      rw [Function.marshal]
      exact accounts_bind (coerces v run) fun v r _ => accounts_bind (ih _ _) fun vs r _ => accounts_ok _

theorem accounts_ready (f : Function σ) (values : List Value) : Accounts invoked ranged (f.ready values) run :=
  accounts_bind (accounts_calling (f.failsCalling_arity values.length)) fun _ _ _ => accounts_marshal _ _ _ _

end Accounts

namespace Expr

open Script

variable {on : Surroundings σ} {invoked : Function σ → List Value → Run σ → Prop} {ranged : Prop}

theorem accounts_play {others : Registry σ} {e : Expr} {checked : Bool} {script script' : Script σ}
    {xs : Nat → Executor σ} {run : Run σ} (steps : Lockstep on others e checked script script')
    (noCall : ∀ name position arguments, e ≠ call name position arguments)
    (values : ∀ i r, (i, r) ∈ script.visits xs run → Accounts invoked (Ranged e) (xs i) r) :
    Accounts invoked (Ranged e) (script.play xs) run := by
  induction steps generalizing run with
  | finish result fails =>
    exact accounts_lift fun inRange x ends => .native (native_of_raises inRange (fails x ends))
  | invoke isCall vs => exact (noCall _ _ _ isCall).elim
  | checkpoint guarded rest ih =>
    refine accounts_bind accounts_checkpoint fun _ r done => ih ?_
    intro i s visited
    apply values
    rw [Script.visits, done]
    exact visited
  | ask i rest ih =>
    refine accounts_bind (values i run ?_) fun v r done => ih v ?_
    · rw [Script.visits]
      exact List.mem_cons_self
    · intro j s visited
      apply values
      rw [Script.visits, done]
      exact List.mem_cons_of_mem _ visited

theorem accounts_evalAll {xs : Nat → Executor σ} {i : Nat} {arguments : List Expr} {run : Run σ}
    (next : List Value → Script σ) (same : ∀ k e, arguments[k]? = some e → xs (i + k) = eval on e)
    (values : ∀ k r, (k, r) ∈ (argumentScript i arguments next).visits xs run →
      Accounts invoked ranged (xs k) r) :
    Accounts invoked ranged (evalAll on arguments) run := by
  induction arguments generalizing i run next with
  | nil =>
    rw [evalAll]
    exact accounts_ok []
  | cons e rest ih =>
    have here : xs i = eval on e := same 0 e rfl
    rw [evalAll]
    refine accounts_bind ?_ fun v r done => ?_
    · rw [← here]
      apply values
      rw [argumentScript, Script.visits]
      exact List.mem_cons_self
    · have later : Accounts invoked ranged (evalAll on rest) r := by
        apply ih fun vs => next (v :: vs)
        · intro k part found
          rw [Nat.add_assoc, Nat.add_comm 1 k]
          exact same (k + 1) part found
        · intro k s visited
          apply values
          rw [argumentScript, Script.visits, here, done]
          exact List.mem_cons_of_mem _ visited
      exact accounts_bind later fun vs r _ => accounts_ok _

theorem accounts_gather {name : String} {position : Nat} {arguments : List Expr} {run : Run σ}
    (values : ∀ k r, (k, r) ∈ visits on (call name position arguments) run →
      Accounts invoked ranged (parts on (call name position arguments) k) r) :
    Accounts invoked ranged (gather on arguments) run := by
  refine accounts_bind accounts_checkpoint fun _ r checked => ?_
  have same (k : Nat) (e : Expr) (found : arguments[k]? = some e) :
      parts on (call name position arguments) (0 + k) = eval on e := by
    rw [Nat.zero_add]
    exact parts_eq found
  refine accounts_evalAll (fun vs => .finish (on.registry.invoke name vs)) same fun k s visited => values k s ?_
  rw [visits, script, Script.visits, checked]
  exact visited

theorem accounts_invoke {name : String} {position : Nat} {arguments : List Expr} {values : List Value}
    {start run : Run σ} (gathered : gather on arguments start = .ok values run) :
    Accounts (Invokes on (call name position arguments) start) ranged (on.registry.invoke name values) run := by
  unfold Registry.invoke
  cases found : on.registry.get? name with
  | none => exact accounts_calling (Function.failsCalling_error _)
  | some f =>
    dsimp only
    rw [Function.invoke_eq]
    refine accounts_bind (accounts_ready f values) fun arguments r ready => ?_
    refine accounts_bind (accounts_perform (.call found gathered ready)) fun v s _ => ?_
    exact accounts_calling (f.failsCalling_coerceResult v)

theorem accounts_absent {run : Run σ} : Accounts invoked ranged absent run := by
  refine accounts_lift fun inRange x fails => ?_
  cases fails
  exact .interrupted

/-- Every body that an evaluation runs is run by a call that the evaluation gets to, and if no look-back is out
of range, every failure has its origin in an operator, in a call or in a body. -/
theorem accounts_eval (e : Expr) (run : Run σ) : Accounts (Invokes on e run) (Ranged e) (eval on e) run := by
  induction e using part_induction generalizing run with
  | step e ih =>
    have values : ∀ i r, (i, r) ∈ visits on e run →
        Accounts (Invokes on e run) (Ranged e) (parts on e i) r := by
      intro i r visited
      unfold parts
      cases found : e.part? i with
      | none => exact accounts_absent
      | some part =>
        apply accounts_mono (ih i part found r)
        · intro f arguments moment inside
          exact .within visited found inside
        · intro ⟨_, parts⟩
          exact parts i part found
    -- a call is taken apart by hand, since its script does not show the values that its body gets
    by_cases isCall : ∃ name position arguments, e = call name position arguments
    · obtain ⟨name, position, arguments, rfl⟩ := isCall
      rw [eval_call]
      exact accounts_bind (accounts_gather values) fun vs r gathered => accounts_invoke gathered
    · rw [eval_eq_play]
      refine accounts_play (lockstep_script on on.registry e) ?_ values
      intro name position arguments same
      exact isCall ⟨name, position, arguments, same⟩

end Expr

end TemplateExpr
