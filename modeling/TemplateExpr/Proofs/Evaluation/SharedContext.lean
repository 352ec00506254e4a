import TemplateExpr.Proofs.Evaluation.Statelessness
import TemplateExpr.Proofs.Expr.PoolBlindness
/-!
A context that is used again and again. Constants of earlier expressions, also of those that were refused half-way,
stay in the pool of the context and are handed out to later ones. This does not show: every step answers as it does
in a context that has never been used, provided that the functions have no memory of their own.
-/
namespace TemplateExpr

variable {σ : Type}

inductive Origin where
  | text (text : String)
  /-- What a stream yields before it ends or fails. -/
  | bytes (bytes : List UInt8) (failure : Option ReadFault)

inductive Step where
  | compile (origin : Origin)
  /-- Evaluates what the compile step of the number has yielded; the first one is number 0. -/
  | evaluate (number : Nat) (symbols : Symbols)

inductive Answer where
  | compiled (result : Except Error Expression)
  | evaluated (result : Except Error Value)
  | missing

def Answer.value? : Answer → Option Value
  | evaluated (.ok v) => some v
  | _ => none

namespace Session

def fresh (context : Context σ) (host : σ) : Session σ := { context, host }

def compileFrom (session : Session σ) : Origin → Except Error Expression × Session σ
  | .text text => session.compile text
  | .bytes bytes failure => session.compileBytes bytes failure

theorem compileSource_context (session : Session σ) (text : Option String) (source : Except Error Source) :
    (session.compileSource text source).2.context = session.context := by
  cases source <;> rfl

theorem compileSource_grows (session : Session σ) (text : Option String) (source : Except Error Source) :
    session.pool.entries <+: (session.compileSource text source).2.pool.entries := by
  cases source with
  | error e => exact List.prefix_refl _
  | ok source => exact (Parser.template_pool _ source session.pool session.pool).2

theorem compileSource_fresh {session session' : Session σ} (same : session'.context = session.context)
    (text : Option String) (source : Except Error Source) :
    (session'.compileSource text source).1 = (session.compileSource text source).1 := by
  cases source with
  | error e => rfl
  | ok source =>
    rw [compileSource_opened, compileSource_opened, same,
      (Parser.template_pool _ source session'.pool session.pool).1]

variable (session : Session σ) (origin : Origin)

theorem compileFrom_context : (session.compileFrom origin).2.context = session.context := by
  cases origin <;> exact session.compileSource_context _ _

theorem compileFrom_grows : session.pool.entries <+: (session.compileFrom origin).2.pool.entries := by
  cases origin <;> exact session.compileSource_grows _ _

theorem compileFrom_fresh {session session' : Session σ} (same : session'.context = session.context) :
    (session'.compileFrom origin).1 = (session.compileFrom origin).1 := by
  cases origin <;> simp only [compileFrom, compile, compileBytes, same] <;> exact compileSource_fresh same _ _

end Session

structure Usage (σ : Type) where
  session : Session σ
  compiled : List (Except Error Expression) := []

namespace Usage

def take (usage : Usage σ) : Step → Answer × Usage σ
  | .compile origin =>
    let (result, session) := usage.session.compileFrom origin
    (.compiled result, ⟨session, usage.compiled ++ [result]⟩)
  | .evaluate number symbols =>
    match usage.compiled[number]? with
    | some (.ok expression) =>
      let (result, session) := usage.session.evaluate expression symbols
      (.evaluated result, { usage with session })
    | _ => (.missing, usage)

def after (usage : Usage σ) (steps : List Step) : Usage σ :=
  steps.foldl (fun usage step => (usage.take step).2) usage

end Usage

def origins : List Step → List Origin
  | [] => []
  | .compile origin :: steps => origin :: origins steps
  | .evaluate .. :: steps => origins steps

/-- The answer to a step after others when it is taken in a context that has never been used. What is evaluated is
compiled there first. -/
def alone (context : Context σ) (host : σ) (before : List Step) : Step → Answer
  | .compile origin => .compiled ((Session.fresh context host).compileFrom origin).1
  | .evaluate number symbols =>
    match (origins before)[number]?.map (Session.fresh context host).compileFrom with
    | some (.ok expression, session) => .evaluated (session.evaluate expression symbols).1
    | _ => .missing

theorem origins_append (before later : List Step) :
    origins (before ++ later) = origins before ++ origins later := by
  induction before with
  | nil => rfl
  | cons step before ih => cases step <;> simp [origins, ih]

namespace Usage

/-- After these steps the usage has the results that they have on their own. -/
structure Follows (context : Context σ) (before : List Step) (usage : Usage σ) : Prop where
  settings : usage.session.context = context
  compiled : ∀ host, usage.compiled =
    (origins before).map fun origin => ((Session.fresh context host).compileFrom origin).1

variable {context : Context σ} {before : List Step} {usage : Usage σ}

theorem take_keeps (usage : Usage σ) (step : Step) :
    (usage.take step).2.session.context = usage.session.context ∧
      usage.session.pool.entries <+: (usage.take step).2.session.pool.entries := by
  cases step with
  | compile origin => exact ⟨usage.session.compileFrom_context origin, usage.session.compileFrom_grows origin⟩
  | evaluate number symbols =>
    unfold take
    dsimp only
    split <;> exact ⟨rfl, List.prefix_refl _⟩

theorem compiled_evaluate (number : Nat) (symbols : Symbols) :
    (usage.take (.evaluate number symbols)).2.compiled = usage.compiled := by
  unfold take
  dsimp only
  split <;> rfl

theorem follows_take (follows : Follows context before usage) (step : Step) :
    Follows context (before ++ [step]) (usage.take step).2 := by
  constructor
  · rw [(take_keeps usage step).1, follows.settings]
  · intro host
    rw [origins_append, List.map_append, ← follows.compiled host]
    cases step with
    | compile origin =>
      have result : (usage.session.compileFrom origin).1 = ((Session.fresh context host).compileFrom origin).1 :=
        Session.compileFrom_fresh origin follows.settings
      simp [take, origins, result]
    | evaluate number symbols => simp [compiled_evaluate, origins]

theorem follows_after (follows : Follows context before usage) (steps : List Step) :
    Follows context (before ++ steps) (usage.after steps) := by
  -- the steps are taken from the front, and the history grows at its end
  induction steps generalizing before usage with
  | nil => simpa [after] using follows
  | cons step steps ih => simpa [after] using ih (follows_take follows step)

theorem answer_of_follows (stateless : context.registry.Stateless) (follows : Follows context before usage)
    (host : σ) (step : Step) : (usage.take step).1 = alone context host before step := by
  cases step with
  | compile origin =>
    have result : (usage.session.compileFrom origin).1 = ((Session.fresh context host).compileFrom origin).1 :=
      Session.compileFrom_fresh origin follows.settings
    simp only [take, alone, result]
  | evaluate number symbols =>
    simp only [take, alone]
    rw [follows.compiled host, List.getElem?_map]
    cases (origins before)[number]? with
    | none => rfl
    | some origin =>
      have kept := (Session.fresh context host).compileFrom_context origin
      simp only [Option.map_some]
      generalize (Session.fresh context host).compileFrom origin = made at kept
      obtain ⟨result, session⟩ := made
      cases result with
      | error e => rfl
      | ok expression =>
        have result : (usage.session.evaluate expression symbols).1 = (session.evaluate expression symbols).1 :=
          evaluate_stateless (by rwa [kept]) (follows.settings.trans kept.symm) expression symbols
        simp only [result]

/-- What a context has been used for before does not show. A step answers as it does in a context of the same
settings that has never been used, it keeps the settings, and of the pool it takes nothing away. -/
theorem shared_invisible (session : Session σ) (stateless : session.context.registry.Stateless)
    (before : List Step) (step : Step) :
    let usage := after ⟨session, []⟩ before
    (∀ host, (usage.take step).1 = alone session.context host before step) ∧
      (usage.take step).2.session.context = session.context ∧
      usage.session.pool.entries <+: (usage.take step).2.session.pool.entries ∧
      usage.session.pool.size ≤ (usage.take step).2.session.pool.size := by
  intro usage
  have start : Follows session.context [] ⟨session, []⟩ := ⟨rfl, fun _ => rfl⟩
  have follows : Follows session.context before usage := follows_after start before
  obtain ⟨settings, grows⟩ := take_keeps usage step
  refine ⟨fun host => answer_of_follows stateless follows host step, ?_, grows, grows.length_le⟩
  rw [settings, follows.settings]

/-- An expression that is refused behind its first constant, and one with the same constant. -/
def refusedThenReused : List Step := [.compile (.text "$(1 + )"), .compile (.text "$(1 + 2)")]

/-- The refused expression leaves its constant in the pool. The other one has its value all the same, as it has on
its own. -/
theorem shared_invisible_refused :
    let session : Session Unit := { context := .standard .epoch, host := () }
    let usage := after ⟨session, []⟩ refusedThenReused
    let answer := (usage.take (.evaluate 1 {})).1
    session.context.registry.Stateless ∧
      (after ⟨session, []⟩ (refusedThenReused.take 1)).session.pool.entries = [.ofInt 1] ∧
      usage.session.pool.entries = [.ofInt 1, .ofInt 2] ∧ answer.value? = some (.ofInt 3) ∧
      answer = alone session.context () refusedThenReused (.evaluate 1 {}) := by
  intro session usage answer
  have stateless : session.context.registry.Stateless := stateless_standard .epoch
  refine ⟨stateless, by decide +kernel, by decide +kernel, by decide +kernel, ?_⟩
  exact (shared_invisible session stateless refusedThenReused (.evaluate 1 {})).1 ()

end Usage

end TemplateExpr
