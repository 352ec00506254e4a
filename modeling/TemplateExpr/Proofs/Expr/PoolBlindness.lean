import TemplateExpr.Proofs.Expr.Composition
import TemplateExpr.Proofs.Expr.Pooling
/-!
What the parser makes of a source does not depend on the pool that it puts the constants into, and whether it
succeeds or fails, it takes nothing out of the pool.
-/
namespace TemplateExpr.Parser

variable {α β : Type} {m : Parse α} {f : α → Parse β}

def repooled (pool : Pool) : EStateM.Result Error Parser α → EStateM.Result Error Parser α
  | .ok a p => .ok a { p with pool }
  | .error e p => .error e { p with pool }

/-- With any pool the parser ends in the same way, and what was in the pool stays there. -/
def Blind (m : Parse α) : Prop :=
  ∀ p pool, ∃ after : Pool, pool.entries <+: after.entries ∧ m { p with pool } = repooled after (m p)

theorem blind_bind (first : Blind m) (rest : ∀ a, Blind (f a)) : Blind (m >>= f) := by
  intro p pool
  obtain ⟨middle, grows, same⟩ := first p pool
  cases done : m p with
  | ok a q =>
    rw [done] at same
    obtain ⟨after, grows', same'⟩ := rest a q middle
    refine ⟨after, grows.trans grows', ?_⟩
    rw [run_bind done, run_bind same, same']
  | error e q =>
    rw [done] at same
    refine ⟨middle, grows, ?_⟩
    rw [run_bind_error done, run_bind_error same]
    rfl

theorem blind_of_repooled (same : ∀ p pool, m { p with pool } = repooled pool (m p)) : Blind m := by
  intro p pool
  exact ⟨pool, List.prefix_refl _, same p pool⟩

theorem blind_pure (a : α) : Blind (pure a) := blind_of_repooled fun _ _ => rfl

theorem blind_throw (e : Error) : Blind (throw e : Parse α) := blind_of_repooled fun _ _ => rfl

theorem blind_scan (s : Scan α) : Blind (scan s) := by
  apply blind_of_repooled
  intro p pool
  unfold scan
  cases s p.source <;> rfl

theorem blind_peek : Blind peek := by
  rintro ⟨source, held, own⟩ pool
  cases held with
  | some t => exact blind_pure t _ pool
  | none =>
    have hold (t : Terminal) : Blind (do modify fun p => { p with held := some t }; return t) :=
      blind_of_repooled fun _ _ => rfl
    exact blind_bind (blind_scan Token.nextExpression) hold _ pool

theorem blind_advance : Blind advance := by
  rintro ⟨source, held, own⟩ pool
  cases held with
  | some t => exact ⟨pool, List.prefix_refl _, rfl⟩
  | none => exact blind_scan Token.nextExpression _ pool

theorem blind_pooled (v : Value) : Blind (pooled v) := by
  intro p pool
  refine ⟨(pool.intern v).2, Pool.entries_intern pool v, ?_⟩
  rw [pooled_eq, pooled_eq]
  rfl

variable (allow : String → Nat → Except Error Unit)

theorem blind_allowCall (name : String) (given : Nat) : Blind (allowCall allow name given) := by
  unfold allowCall
  split
  · exact blind_pure _
  · exact blind_throw _

theorem blind_compositional : Compositional allow fun _ m => Blind m where
  pure := blind_pure
  bind := blind_bind
  refuse _ _ := blind_throw _
  exhausted := blind_throw _
  text _ := blind_scan _
  peek := blind_peek
  advance := blind_advance
  pooled := blind_pooled
  allowCall := blind_allowCall allow

theorem template_pool (source : Source) (pool pool' : Pool) :
    (template allow source pool).1 = (template allow source pool').1 ∧
      pool.entries <+: (template allow source pool).2.entries := by
  have steps := blind_compositional allow
  have blind : Blind (do ofSegments (← segments allow (depthFor source) none 0) true) :=
    steps.bind ((throughout steps _).segments none 0) fun ss => steps.ofSegments ss true
  unfold template
  generalize (do
    ofSegments (← segments allow (depthFor source) none 0) true : Parse Expr) = whole at blind ⊢
  obtain ⟨after, grows, same⟩ := blind ⟨source, none, pool'⟩ pool
  dsimp only at same
  rw [same]
  cases whole ⟨source, none, pool'⟩ <;> exact ⟨rfl, grows⟩

end TemplateExpr.Parser
