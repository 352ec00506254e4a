import TemplateExpr.Expr.Evaluation
/-!
Evaluation as a script. A script acts on the run, asks for the value of one part after another, and goes on by
the values that it gets; it cannot look at its parts in any other way. The script of an expression asks for the
parts of the expression, and played on their evaluations it is the evaluation of the expression.
-/
namespace TemplateExpr

abbrev Executor (σ : Type) : Type := Eval σ Value

inductive Script (σ : Type) where
  | finish (result : Eval σ Value)
  | act (action : Eval σ Unit) (next : Script σ)
  | ask (part : Nat) (next : Value → Script σ)

namespace Script

variable {σ α : Type}

def ofExcept : Except Error α → (α → Script σ) → Script σ
  | .ok a, next => next a
  | .error e, _ => finish (throw e)

/-- The executor that a script is on executors for its parts. -/
def play (parts : Nat → Executor σ) : Script σ → Eval σ Value
  | finish result => result
  | act action next => do
    action
    next.play parts
  | ask i next => do
    let v ← parts i
    (next v).play parts

/-- The parts that are asked for, in order, each with the run at that moment. -/
def visits (parts : Nat → Executor σ) : Script σ → Run σ → List (Nat × Run σ)
  | finish _, _ => []
  | act action next, run =>
    match action run with
    | .ok _ run => next.visits parts run
    | .error _ _ => []
  | ask i next, run =>
    (i, run) ::
      match parts i run with
      | .ok v run => (next v).visits parts run
      | .error _ _ => []

/-- Asks for parts from the index `i` on, each before all later ones and at most once. -/
def Ascends (i : Nat) : Script σ → Prop
  | finish _ => True
  | act _ next => next.Ascends i
  | ask j next => i ≤ j ∧ ∀ v, (next v).Ascends (j + 1)

theorem play_ofExcept (parts : Nat → Executor σ) (result : Except Error α) (next : α → Script σ) :
    (ofExcept result next).play parts = (do
      let a ← Run.lift result
      (next a).play parts) := by
  cases result <;> rfl

theorem ascends_ofExcept {i : Nat} {result : Except Error α} {next : α → Script σ}
    (ascends : ∀ a, (next a).Ascends i) : (ofExcept result next).Ascends i := by
  cases result with
  | ok a => exact ascends a
  | error e => trivial

theorem mem_visits_ask {parts : Nat → Executor σ} {i k : Nat} {next : Value → Script σ} {run r : Run σ}
    (visited : (k, r) ∈ (ask i next).visits parts run) :
    k = i ∧ r = run ∨ ∃ v s, parts i run = .ok v s ∧ (k, r) ∈ (next v).visits parts s := by
  rw [visits] at visited
  rcases List.mem_cons.mp visited with here | later
  · cases here
    exact Or.inl ⟨rfl, rfl⟩
  · cases done : parts i run with
    | ok v s =>
      rw [done] at later
      exact Or.inr ⟨v, s, rfl, later⟩
    | error e s =>
      rw [done] at later
      cases later

theorem mem_visits_ofExcept {parts : Nat → Executor σ} {result : Except Error α} {next : α → Script σ}
    {run r : Run σ} {k : Nat} (visited : (k, r) ∈ (ofExcept result next).visits parts run) :
    ∃ a, result = .ok a ∧ (k, r) ∈ (next a).visits parts run := by
  cases result with
  | ok a => exact ⟨a, rfl, visited⟩
  | error e => cases visited

theorem ascends_mono {i j : Nat} (less : i ≤ j) {script : Script σ} (ascends : script.Ascends j) :
    script.Ascends i := by
  induction script with
  | finish result => trivial
  | act action next ih => exact ih ascends
  | ask k next ih => exact ⟨Nat.le_trans less ascends.1, ascends.2⟩

theorem le_of_visits {parts : Nat → Executor σ} {script : Script σ} {i j : Nat} {run r : Run σ}
    (ascends : script.Ascends i) (visited : (j, r) ∈ script.visits parts run) : i ≤ j := by
  induction script generalizing i run with
  | finish result => cases visited
  | act action next ih =>
    rw [visits] at visited
    split at visited
    · exact ih ascends visited
    · cases visited
  | ask k next ih =>
    have least := ascends.1
    rcases mem_visits_ask visited with ⟨here, _⟩ | ⟨v, s, _, later⟩
    · omega
    · have above := ih v (ascends.2 v) later
      omega

theorem play_congr {parts others : Nat → Executor σ} {script : Script σ} {run : Run σ}
    (same : ∀ i r, (i, r) ∈ script.visits parts run → others i r = parts i r) :
    script.play others run = script.play parts run := by
  induction script generalizing run with
  | finish result => rfl
  | act action next ih =>
    change EStateM.bind action _ run = EStateM.bind action _ run
    rw [visits] at same
    unfold EStateM.bind
    cases done : action run with
    | ok u r =>
      rw [done] at same
      exact ih same
    | error e r => rfl
  | ask i next ih =>
    change EStateM.bind (others i) _ run = EStateM.bind (parts i) _ run
    rw [visits] at same
    have first := same i run List.mem_cons_self
    unfold EStateM.bind
    rw [first]
    cases done : parts i run with
    | ok v r =>
      rw [done] at same
      exact ih v fun j s visited => same j s (List.mem_cons_of_mem _ visited)
    | error e r => rfl

theorem play_fails {parts others : Nat → Executor σ} {script : Script σ} {i j : Nat}
    {run r s : Run σ} {e : Error} (ascends : script.Ascends i)
    (visited : (j, r) ∈ script.visits parts run) (same : ∀ k, k ≠ j → others k = parts k)
    (fails : others j r = .error e s) : script.play others run = .error e s := by
  induction script generalizing i run with
  | finish result => cases visited
  | act action next ih =>
    change EStateM.bind action _ run = _
    rw [visits] at visited
    unfold EStateM.bind
    cases done : action run with
    | ok u r' =>
      rw [done] at visited
      exact ih ascends visited
    | error e' r' =>
      rw [done] at visited
      cases visited
  | ask k next ih =>
    change EStateM.bind (others k) _ run = _
    unfold EStateM.bind
    rcases mem_visits_ask visited with ⟨rfl, rfl⟩ | ⟨v, t, done, later⟩
    · rw [fails]
    · have above := le_of_visits (ascends.2 v) later
      rw [same k (by omega), done]
      exact ih v (ascends.2 v) later

theorem last_of_fails {parts : Nat → Executor σ} {script : Script σ} {i j k : Nat}
    {run r r' s : Run σ} {e : Error} (ascends : script.Ascends i)
    (visited : (j, r) ∈ script.visits parts run) (fails : parts j r = .error e s)
    (other : (k, r') ∈ script.visits parts run) : k ≤ j := by
  induction script generalizing i run with
  | finish result => cases visited
  | act action next ih =>
    rw [visits] at visited other
    cases done : action run with
    | ok u t =>
      rw [done] at visited other
      exact ih ascends visited other
    | error e' t =>
      rw [done] at visited
      cases visited
  | ask l next ih =>
    rcases mem_visits_ask visited with ⟨rfl, rfl⟩ | ⟨v, t, done, later⟩
    · rcases mem_visits_ask other with ⟨here, _⟩ | ⟨w, t, succeeds, _⟩
      · exact Nat.le_of_eq here
      · cases fails.symm.trans succeeds
    · have above := le_of_visits (ascends.2 v) later
      rcases mem_visits_ask other with ⟨here, _⟩ | ⟨w, t', again, behind⟩
      · omega
      · cases done.symm.trans again
        exact ih v (ascends.2 v) later behind

end Script

end TemplateExpr
