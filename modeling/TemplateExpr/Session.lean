import TemplateExpr.Context
import TemplateExpr.Expr.Evaluation
import TemplateExpr.Expr.Parser
/-!
A context in use. Compiling leaves the constants of an expression in the pool, evaluating may change the host
program; apart from that a session remembers nothing.
-/
namespace TemplateExpr

structure Expression where
  root : Expr
  text : Option String

structure Session (σ : Type) where
  context : Context σ
  pool : Pool := {}
  host : σ

namespace Session

variable {σ : Type}

def compileSource (session : Session σ) (text : Option String) (source : Except Error Source) :
    Except Error Expression × Session σ :=
  match source with
  | .error e => (.error e, session)
  | .ok source =>
    let (root, pool) := Parser.template session.context.registry.check source session.pool
    (root.map fun root => ⟨root, text⟩, { session with pool })

section Compiling

variable {session : Session σ} {text : Option String}

theorem compileSource_opened (source : Source) :
    (session.compileSource text (.ok source)).1 =
      (Parser.template session.context.registry.check source session.pool).1.map fun root => ⟨root, text⟩ := rfl

theorem compileSource_ok {opened : Except Error Source} {expression : Expression}
    (compiled : (session.compileSource text opened).1 = .ok expression) :
    ∃ source, opened = .ok source ∧
      (Parser.template session.context.registry.check source session.pool).1 = .ok expression.root := by
  cases opened with
  | error e => cases compiled
  | ok source =>
    refine ⟨source, rfl, ?_⟩
    rw [compileSource_opened] at compiled
    cases parsed : (Parser.template session.context.registry.check source session.pool).1 with
    | error e =>
      rw [parsed] at compiled
      cases compiled
    | ok root =>
      rw [parsed] at compiled
      cases compiled
      rfl

theorem compileSource_error {source : Source} {e : Error}
    (refused : (session.compileSource text (.ok source)).1 = .error e) :
    (Parser.template session.context.registry.check source session.pool).1 = .error e := by
  rw [compileSource_opened] at refused
  cases parsed : (Parser.template session.context.registry.check source session.pool).1 with
  | error fault =>
    rw [parsed] at refused
    cases refused
    rfl
  | ok root =>
    rw [parsed] at refused
    cases refused

end Compiling

def compile (session : Session σ) (text : String) : Except Error Expression × Session σ :=
  session.compileSource (some text) (Source.ofText session.context.lengthLimit text)

/-- Compiles what a stream of bytes yields before it ends or fails. -/
def compileBytes (session : Session σ) (bytes : List UInt8) (failure : Option ReadFault) :
    Except Error Expression × Session σ :=
  session.compileSource none (Source.ofBytes session.context.lengthLimit bytes failure)

/-- Evaluates an expression in the given run, which has no limit on its time of its own. -/
def runIn (session : Session σ) (expression : Expression) (symbols : Symbols) (run : Run σ) :
    Except Error Value × Run σ :=
  let on : Surroundings σ := ⟨session.context.registry, session.context.math, symbols⟩
  match expression.root.eval on run with
  | .ok v run => (.ok v, run)
  | .error e run => (.error e, run)

def evaluate (session : Session σ) (expression : Expression) (symbols : Symbols) :
    Except Error Value × Session σ :=
  let (result, run) :=
    session.runIn expression symbols { host := session.host, limit := session.context.timeLimit }
  (result, { session with host := run.host })

end Session

end TemplateExpr
