import TemplateExpr.Proofs.Evaluation.Simulation
/-!
Cancellation. A run that has been cancelled ends at its next check, and nothing that it does depends on the
cancellation otherwise. So a run that is cancelled beforehand calls no function, and one that a function cancels
ends with the interruption or with what it would have ended with anyway.
-/
namespace TemplateExpr

variable {σ α : Type}

/-- The function with its body kept from cancelling runs. -/
def Function.steady (f : Function σ) : Function σ :=
  f.withBody fun arguments host => { f.body arguments host with cancels := false }

def Registry.steady (registry : Registry σ) : Registry σ := ⟨registry.functions.map Function.steady⟩

def Surroundings.steady (on : Surroundings σ) : Surroundings σ := { on with registry := on.registry.steady }

def Context.steady (context : Context σ) : Context σ := { context with registry := context.registry.steady }

def Session.steady (session : Session σ) : Session σ := { session with context := session.context.steady }

def Run.uncancelled (run : Run σ) : Run σ := { run with cancelled := false }

theorem get?_steady (registry : Registry σ) (name : String) :
    registry.steady.get? name = (registry.get? name).map Function.steady := by
  unfold Registry.get? Registry.steady
  rw [List.find?_map]
  rfl

def Uncancels (m m' : Eval σ α) : Prop :=
  Simulates (fun e => e = .interrupted) (fun r q => q = r.uncancelled) m m'

theorem uncancels_checkpoint : Uncancels (Run.checkpoint (σ := σ)) Run.checkpoint := by
  intro r q runs
  subst runs
  cases flag : r.cancelled with
  | true =>
    refine .inl ⟨.interrupted, { r with events := .checkpoint :: r.events }, rfl, ?_⟩
    simp [Run.checkpoint, flag]
  | false =>
    have passes : Run.checkpoint r = .ok () { r with events := .checkpoint :: r.events } := by
      simp [Run.checkpoint, flag]
    rw [passes]
    exact .inr (.ok () rfl)

theorem synchronous_uncancelled : Synchronous fun r q : Run σ => q = r.uncancelled := by
  constructor
  · rintro r _ rfl
    rfl
  · rintro r _ rfl
    rfl
  · rintro r _ rfl
    rfl
  · rintro r _ host rfl
    rfl

theorem uncancels_invoke (registry : Registry σ) (name : String) (values : List Value) :
    Uncancels (registry.invoke name values) (registry.steady.invoke name values) := by
  unfold Registry.invoke
  rw [get?_steady]
  cases registry.get? name with
  | none => exact simulates_lift (.error _)
  | some f =>
    apply simulates_invoke synchronous_uncancelled
    · intro arguments host
      rfl
    · rintro r _ arguments rfl
      rfl

theorem uncancels_eval (on : Surroundings σ) (e : Expr) : Uncancels (e.eval on) (e.eval on.steady) :=
  simulates_eval uncancels_checkpoint (uncancels_invoke on.registry) e

namespace Expr

variable {on : Surroundings σ}

/-- Evaluation from a run passes a check for cancellation. -/
inductive Passes (on : Surroundings σ) : Expr → Run σ → Prop where
  | operator {op : BinaryOp} (notAnd : op ≠ .and) (notOr : op ≠ .or) (left right : Expr) (run : Run σ) :
      Passes on (binary op left right) run
  | call (name : String) (position : Nat) (arguments : List Expr) (run : Run σ) :
      Passes on (call name position arguments) run
  | segment {segments : List (Segment Expr)} {typed : Bool} {run r : Run σ} {i : Nat}
      (several : ∀ e, segments = [.value e] → typed = true → False)
      (visited : (i, r) ∈ visits on (template segments typed) run) : Passes on (template segments typed) run
  | within {e part : Expr} {run r : Run σ} {i : Nat} (visited : (i, r) ∈ visits on e run)
      (found : e.part? i = some part) (inside : Passes on part r) : Passes on e run

end Expr

namespace Script

variable {parts : Nat → Executor σ} {passes : Nat → Run σ → Prop}

def Checks (parts : Nat → Executor σ) (passes : Nat → Run σ → Prop) : Script σ → Run σ → Prop
  | finish _, _ => False
  | act _ _, _ => True
  | ask i next, run => passes i run ∨ ∃ v r, parts i run = .ok v r ∧ (next v).Checks parts passes r

theorem checks_of_visits {script : Script σ} {run r : Run σ} {i : Nat}
    (visited : (i, r) ∈ script.visits parts run) (inside : passes i r) : script.Checks parts passes run := by
  induction script generalizing run with
  | finish result => cases visited
  | act action next ih => trivial
  | ask k next ih =>
    rcases mem_visits_ask visited with ⟨rfl, rfl⟩ | ⟨v, s, done, later⟩
    · exact .inl inside
    · exact .inr ⟨v, s, done, ih v later⟩

theorem visits_of_checks {on : Surroundings σ} {others : Registry σ} {e : Expr} {checked : Bool}
    {script script' : Script σ} {run : Run σ} (steps : Lockstep on others e checked script' script)
    (unguarded : ¬ e.Guarded) (checks : script.Checks parts passes run) :
    ∃ i r, (i, r) ∈ script.visits parts run ∧ passes i r := by
  induction steps generalizing run with
  | finish result fails => exact checks.elim
  | invoke isCall values => exact checks.elim
  | checkpoint guarded rest ih => exact (unguarded guarded).elim
  | @ask _ i next next' rest ih =>
    rcases checks with here | ⟨v, r, done, later⟩
    · refine ⟨i, run, ?_, here⟩
      rw [visits]
      exact List.mem_cons_self
    · obtain ⟨j, s, visited, inside⟩ := ih v later
      refine ⟨j, s, ?_, inside⟩
      rw [visits, done]
      exact List.mem_cons_of_mem _ visited

/-- The end of a computation in a run that has been cancelled: the interruption at a check, or a result that
changes nothing and does not depend on the cancellation. -/
structure Ends (passes : Prop) (m m' : Eval σ Value) (run : Run σ) : Prop where
  checked : passes → m run = .error .interrupted { run with events := .checkpoint :: run.events }
  unchecked : ¬ passes → ∃ result, m run = Run.lift result run ∧
    m' run.uncancelled = Run.lift result run.uncancelled

theorem ends_play {on : Surroundings σ} {others : Registry σ} {e : Expr} {script script' : Script σ}
    {parts' : Nat → Executor σ} {run : Run σ} (steps : Lockstep on others e false script script')
    (cancelled : run.cancelled = true)
    (values : ∀ i, Ends (passes i run.uncancelled) (parts i) (parts' i) run) :
    Ends (script'.Checks parts' passes run.uncancelled) (script.play parts) (script'.play parts') run := by
  generalize unchecked : false = checked at steps
  induction steps with
  | finish result fails =>
    constructor
    · intro checks
      exact checks.elim
    · intro _
      exact ⟨result, rfl, rfl⟩
  | invoke isCall values => cases unchecked
  | @checkpoint _ next next' guarded rest ih =>
    have stops : Run.checkpoint run = .error .interrupted { run with events := .checkpoint :: run.events } := by
      simp [Run.checkpoint, cancelled]
    constructor
    · intro _
      exact run_bind_error stops
    · intro none
      exact (none trivial).elim
  | @ask _ i next next' rest ih =>
    have first := values i
    constructor
    · intro checks
      by_cases here : passes i run.uncancelled
      · exact run_bind_error (first.checked here)
      · obtain ⟨result, done, same⟩ := first.unchecked here
        rcases checks with here' | ⟨v, r, value, later⟩
        · exact (here here').elim
        · cases result with
          | ok a =>
            cases same.symm.trans value
            exact (run_bind done).trans ((ih v unchecked).checked later)
          | error e => cases same.symm.trans value
    · intro none
      have here : ¬ passes i run.uncancelled := fun here => none (.inl here)
      obtain ⟨result, done, same⟩ := first.unchecked here
      cases result with
      | ok v =>
        have later : ¬ (next' v).Checks parts' passes run.uncancelled :=
          fun later => none (.inr ⟨v, run.uncancelled, same, later⟩)
        obtain ⟨result, done', same'⟩ := (ih v unchecked).unchecked later
        exact ⟨result, (run_bind done).trans done', (run_bind same).trans same'⟩
      | error e => exact ⟨.error e, run_bind_error done, run_bind_error same⟩

end Script

namespace Expr

open Script

variable {on : Surroundings σ}

theorem visits_checkpoint {parts : Nat → Executor σ} {next : Script σ} {run : Run σ}
    (uncancelled : run.cancelled = false) :
    (act Run.checkpoint next).visits parts run =
      next.visits parts { run with events := .checkpoint :: run.events } := by
  simp [Script.visits, Run.checkpoint, uncancelled]

theorem checks_segmentScript {parts : Nat → Executor σ} {passes : Nat → Run σ → Prop}
    {produced : List String} {i : Nat} {segments : List (Segment Expr)} {run : Run σ}
    {result : List String → Eval σ Value} (uncancelled : run.cancelled = false) :
    (segmentScript produced i segments fun texts => .finish (result texts)).Checks parts passes run ↔
      ∃ k r,
        (k, r) ∈ (segmentScript produced i segments fun texts => .finish (result texts)).visits parts run := by
  induction segments generalizing produced i result with
  | nil => simp [segmentScript, Checks, Script.visits]
  | cons segment segments ih =>
    cases segment with
    | text s =>
      simp only [segmentScript]
      exact ih
    | value e =>
      simp only [segmentScript, visits_checkpoint uncancelled, Checks, Script.visits, true_iff]
      exact ⟨i, _, List.mem_cons_self⟩
    | lookBack distance position =>
      simp only [segmentScript]
      cases lookBack? produced distance with
      | some s => exact ih
      | none => simp [Checks, Script.visits]

def partPasses (on : Surroundings σ) (e : Expr) (i : Nat) (run : Run σ) : Prop :=
  ∃ part, e.part? i = some part ∧ Passes on part run

theorem checks_template {segments : List (Segment Expr)} {typed : Bool} {run : Run σ}
    {passes : Nat → Run σ → Prop} (several : ∀ e, segments = [.value e] → typed = true → False)
    (uncancelled : run.cancelled = false) :
    (script on (template segments typed)).Checks (parts on (template segments typed)) passes run ↔
      ∃ i r, (i, r) ∈ visits on (template segments typed) run := by
  rw [visits, script.eq_3 _ _ _ several]
  exact checks_segmentScript uncancelled

theorem checks_of_passes {e : Expr} {run : Run σ} (passes : Passes on e run)
    (uncancelled : run.cancelled = false) :
    (script on e).Checks (parts on e) (partPasses on e) run := by
  cases passes with
  | @operator op notAnd notOr left right =>
    rw [script.eq_9 _ _ _ _ notAnd notOr]
    trivial
  | call name position arguments => trivial
  | segment several visited => exact (checks_template several uncancelled).mpr ⟨_, _, visited⟩
  | within visited found inside => exact checks_of_visits visited ⟨_, found, inside⟩

theorem passes_of_checks {e : Expr} {run : Run σ}
    (checks : (script on e).Checks (parts on e) (partPasses on e) run) (uncancelled : run.cancelled = false) :
    Passes on e run := by
  by_cases guarded : Guarded e
  · cases guarded with
    | operator notAnd notOr left right => exact .operator notAnd notOr left right run
    | call name position arguments => exact .call name position arguments run
    | template several =>
      obtain ⟨i, r, visited⟩ := (checks_template several uncancelled).mp checks
      exact .segment several visited
  · obtain ⟨i, r, visited, part, found, inside⟩ :=
      visits_of_checks (lockstep_script on on.registry e) guarded checks
    exact .within visited found inside

theorem ends_eval (on : Surroundings σ) (e : Expr) {run : Run σ} (cancelled : run.cancelled = true) :
    Ends (Passes on.steady e run.uncancelled) (e.eval on) (e.eval on.steady) run := by
  induction e using part_induction with
  | step e ih =>
    have same : Passes on.steady e run.uncancelled ↔
        (script on.steady e).Checks (parts on.steady e) (partPasses on.steady e) run.uncancelled :=
      ⟨fun passes => checks_of_passes passes rfl, fun checks => passes_of_checks checks rfl⟩
    rw [same, eval_eq_play, eval_eq_play]
    refine ends_play (lockstep_script on on.registry.steady e) cancelled fun i => ?_
    unfold parts partPasses
    cases found : e.part? i with
    | none =>
      constructor
      · rintro ⟨part, none, _⟩
        cases none
      · intro _
        exact ⟨.error .interrupted, rfl, rfl⟩
    | some part =>
      simp only [Option.some.injEq, exists_eq_left']
      exact ih i part found

end Expr

namespace Session

/-- Cancellation is all or nothing. Take what a run ends with if nothing ever cancels it. A run that has been
cancelled beforehand is interrupted if the other one passes a check, and ends as that one does if not; it calls
nothing and leaves nothing behind but the mark of the check. A run that a function may cancel is interrupted or
ends as the other one does. -/
theorem cancellation_all_or_nothing (session : Session σ) (expression : Expression) (symbols : Symbols)
    (run : Run σ) :
    let undisturbed := (session.steady.runIn expression symbols run.uncancelled).1
    let passes := expression.root.Passes (session.steady.surroundings symbols) run.uncancelled
    let cancelled := { run with cancelled := true }
    (passes → session.runIn expression symbols cancelled =
      (.error .interrupted, { cancelled with events := .checkpoint :: run.events })) ∧
    (¬ passes → session.runIn expression symbols cancelled = (undisturbed, cancelled)) ∧
    ((session.runIn expression symbols run).1 = .error .interrupted ∨
      (session.runIn expression symbols run).1 = undisturbed) := by
  intro undisturbed passes cancelled
  let on := session.surroundings symbols
  have ends := Expr.ends_eval on expression.root (rfl : cancelled.cancelled = true)
  have steady : undisturbed = (expression.root.eval on.steady).outcome run.uncancelled :=
    congrArg Prod.fst (runIn_eq session.steady expression symbols run.uncancelled)
  constructor
  · intro checked
    exact runIn_of_error (ends.checked checked)
  constructor
  · intro unchecked
    obtain ⟨result, done, same⟩ := ends.unchecked unchecked
    have other : undisturbed = result := steady.trans (Eval.outcome_of_lift same)
    rw [other]
    exact runIn_of_lift done
  · rw [steady, runIn_eq]
    rcases uncancels_eval on expression.root run run.uncancelled rfl with ⟨fault, r, rfl, stops⟩ | alike
    · exact .inl (Eval.outcome_of_error stops)
    · exact .inr (outcome_of_alike alike)

end Session

end TemplateExpr
