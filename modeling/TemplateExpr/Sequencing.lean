/-!
Computations that keep a state when they fail, one after the other. Scans, parsers and evaluations are of this kind.
-/
namespace TemplateExpr

variable {ε σ α β : Type} {m : EStateM ε σ α} {f : α → EStateM ε σ β} {r s t : σ} {a : α} {b : β} {e : ε}

theorem run_bind (done : m r = .ok a s) : (m >>= f) r = f a s := by
  change EStateM.bind m f r = f a s
  rw [EStateM.bind, done]

theorem run_bind_error (failed : m r = .error e s) : (m >>= f) r = .error e s := by
  change EStateM.bind m f r = .error e s
  rw [EStateM.bind, failed]

theorem bind_ok (done : (m >>= f) r = .ok b t) : ∃ a s, m r = .ok a s ∧ f a s = .ok b t := by
  cases first : m r with
  | ok a s => exact ⟨a, s, rfl, (run_bind first).symm.trans done⟩
  | error e s => cases (run_bind_error first).symm.trans done

theorem bind_error (failed : (m >>= f) r = .error e t) :
    m r = .error e t ∨ ∃ a s, m r = .ok a s ∧ f a s = .error e t := by
  cases first : m r with
  | ok a s => exact Or.inr ⟨a, s, rfl, (run_bind first).symm.trans failed⟩
  | error e' s =>
    cases (run_bind_error first).symm.trans failed
    exact Or.inl rfl

end TemplateExpr
