import TemplateExpr.Proofs.Evaluation.Calls
/-!
Failures of functions. What the body of a function fails with is what the whole evaluation fails with, however
deep the call stands, and nothing is run behind it.
-/
namespace TemplateExpr

variable {σ : Type}

/-- How the body of a function of the name fails, and what the evaluation fails with then. -/
inductive Outcome.Fails (name : String) : Outcome → Error → Prop where
  | own (x : Error) : Fails name (.error x) x
  | bare (x : FunctionFault) : Fails name (.fault x) (.function x)
  | foreign (x : String) : Fails name (.foreign x) (.function (.invocation name x))

theorem Outcome.result_of_fails {name : String} {outcome : Outcome} {x : Error} (fails : outcome.Fails name x) :
    outcome.result name = .error x := by
  cases fails <;> rfl

namespace Expr

open Script

variable {on : Surroundings σ}

theorem limit_of_visits {others : Registry σ} {e : Expr} {checked : Bool} {script script' : Script σ}
    {xs : Nat → Executor σ} {run r : Run σ} {i : Nat} (steps : Lockstep on others e checked script script')
    (keeps : ∀ k s, ((xs k).after s).limit = s.limit) (visited : (i, r) ∈ script.visits xs run) :
    r.limit = run.limit := by
  induction steps generalizing run with
  | finish result fails => cases visited
  | invoke isCall values => cases visited
  | checkpoint guarded rest ih =>
    rw [Script.visits] at visited
    split at visited
    · rename_i s checked
      rw [ih visited, ← Eval.after_of_ok checked]
      have account : Accounts (fun _ _ _ => True) True Run.checkpoint run := accounts_checkpoint
      exact account.limit
    · cases visited
  | ask k rest ih =>
    rcases mem_visits_ask visited with ⟨_, rfl⟩ | ⟨v, s, done, later⟩
    · rfl
    · rw [ih v later, ← Eval.after_of_ok done, keeps]

theorem accounts_parts (e : Expr) (i : Nat) (run : Run σ) :
    Accounts (fun _ _ _ => True) False (parts on e i) run := by
  unfold parts
  cases e.part? i with
  | none => exact accounts_absent
  | some part => exact accounts_mono (accounts_eval part run) (fun _ _ _ _ => trivial) False.elim

theorem limit_of_invokes {e : Expr} {run moment : Run σ} {f : Function σ} {arguments : List Value}
    (invokes : Invokes on e run f arguments moment) : moment.limit = run.limit := by
  induction invokes with
  | @call name position arguments run r moment f values _ found gathered ready =>
    have first : Accounts (fun _ _ _ => True) False (gather on arguments) run :=
      accounts_gather fun i s _ => accounts_parts (.call name position arguments) i s
    have second : Accounts (fun _ _ _ => True) False (f.ready values) r := accounts_ready f values
    calc
      moment.limit = ((f.ready values).after r).limit := by rw [Eval.after_of_ok ready]
      _ = r.limit := second.limit
      _ = ((gather on arguments).after run).limit := by rw [Eval.after_of_ok gathered]
      _ = run.limit := first.limit
  | within visited found inside ih =>
    rw [ih]
    exact limit_of_visits (lockstep_script on on.registry _) (fun k s => (accounts_parts _ k s).limit) visited

theorem eval_fails {e part : Expr} {run r s : Run σ} {i : Nat} {fault : Error}
    (visited : (i, r) ∈ visits on e run) (found : e.part? i = some part)
    (fails : eval on part r = .error fault s) : eval on e run = .error fault s := by
  rw [eval_eq_play]
  refine play_fails (ascends_script e) visited (fun _ _ => rfl) ?_
  rw [parts_eq found]
  exact fails

theorem eval_of_invokes {e : Expr} {run moment : Run σ} {f : Function σ} {arguments : List Value} {x : Error}
    (invokes : Invokes on e run f arguments moment) (unlimited : moment.limit = none)
    (fails : (f.body arguments moment.host).outcome.Fails f.name x) :
    eval on e run = .error x (moment.performed f arguments) := by
  induction invokes with
  | @call name position parts run r moment f values arguments found gathered ready =>
    have inTime : ¬ (moment.performed f arguments).overdue = true := by
      simp [Run.overdue, Run.performed, unlimited]
    have performs : f.perform arguments moment = .error x (moment.performed f arguments) := by
      rw [Function.perform_eq, if_neg inTime, Outcome.result_of_fails fails]
      rfl
    rw [eval_call, run_bind gathered, Registry.invoke, found]
    dsimp only
    rw [Function.invoke_eq, run_bind ready, run_bind_error performs]
  | within visited found inside ih => exact eval_fails visited found (ih unlimited fails)

end Expr

namespace Session

/-- Failures of functions are transparent. In a run without a limit on its time, a body that fails with an error
of the language, with a fault of a function or with something foreign is the last one to run, and the evaluation
fails with that error, with that fault, or with that something wrapped once for the function of the body. All
bodies that a run marks as run are bodies for which this is said. -/
theorem failure_transparent (session : Session σ) (expression : Expression) (symbols : Symbols) (run : Run σ) :
    let invokes := expression.root.Invokes (session.surroundings symbols) { run with limit := none }
    let final := session.runIn expression symbols { run with limit := none }
    (∀ f arguments moment x, invokes f arguments moment →
      (f.body arguments moment.host).outcome.Fails f.name x →
        final = (.error x, moment.performed f arguments)) ∧
    ∀ front name arguments back, final.2.events = front ++ .call name arguments :: back →
      run.events <:+ back → ∃ f moment, invokes f arguments moment ∧ f.name = name ∧ moment.events = back := by
  intro invokes final
  constructor
  · intro f arguments moment x invoked fails
    exact runIn_of_error (Expr.eval_of_invokes invoked (Expr.limit_of_invokes invoked) fails)
  · let eval := expression.root.eval (session.surroundings symbols)
    have left : final.2 = eval.after { run with limit := none } :=
      congrArg Prod.snd (runIn_eq session expression symbols _)
    rw [left]
    exact (Expr.accounts_eval expression.root { run with limit := none }).calls

end Session

end TemplateExpr
