import TemplateExpr.Expr.Parser
/-!
Constants as the pool hands them out. A constant is the value that was read, whatever is in the pool.
-/
namespace TemplateExpr.Parser

theorem pooled_eq (v : Value) (p : Parser) : pooled v p = .ok v { p with pool := (p.pool.intern v).2 } := by
  have same := Pool.intern_value p.pool v
  unfold pooled
  simp only [same]

theorem constant_eq (v : Value) (p : Parser) :
    constant v p = .ok (.constant v) { p with pool := (p.pool.intern v).2 } := by
  unfold constant
  rw [run_bind (pooled_eq v p)]
  rfl

theorem shared_eq {segments : List (Segment Expr)} {text : String} (plain : plainText? segments = some text) :
    shared (.text text) segments = segments := by
  unfold shared
  split
  · simp [plainText?] at plain
    rw [Value.asText, plain]
  · rfl

theorem ofSegments_eq (segments : List (Segment Expr)) (typed : Bool) (p : Parser) :
    ∃ pool, ofSegments segments typed p = .ok (.template segments typed) { p with pool } := by
  unfold ofSegments
  cases plain : plainText? segments with
  | none => exact ⟨p.pool, rfl⟩
  | some text =>
    refine ⟨(p.pool.intern (.text text)).2, ?_⟩
    dsimp only
    rw [run_bind (pooled_eq _ p), shared_eq plain]
    rfl

end TemplateExpr.Parser
