import TemplateExpr.Proofs.Evaluation.Reach
/-!
What evaluation does not get to does not matter, and what it gets to does. The operators are lazy exactly where
the language says so.
-/
namespace TemplateExpr.Expr

variable {σ : Type} {on : Surroundings σ}

theorem assemble_here {sub : Substitution σ} {x : Executor σ} (e : Expr) (h : sub [] = some x) :
    assemble on sub e = x := by
  rw [assemble, h]
  rfl

def assembled (on : Surroundings σ) (sub : Substitution σ) (e : Expr) (i : Nat) : Executor σ :=
  (e.part? i).elim absent (assemble on (sub.below i))

theorem assemble_parts {sub : Substitution σ} (e : Expr) (h : sub [] = none) :
    assemble on sub e = (script on e).play (assembled on sub e) := by
  rw [assemble, h, Option.getD_none]
  congr 1
  funext i
  unfold assembled
  split
  · rename_i part found
    rw [found]
    rfl
  · rename_i none
    rw [none]
    rfl

theorem assemble_unreached {e : Expr} {run : Run σ} {sub : Substitution σ}
    (away : ∀ path r, Reaches on e run path r → sub path = none) :
    assemble on sub e run = eval on e run := by
  induction e using part_induction generalizing run sub with
  | step e ih =>
    rw [assemble_parts e (away [] run (.here e run)), eval_eq_play]
    refine Script.play_congr fun i r visited => ?_
    unfold assembled parts
    cases found : e.part? i with
    | none => rfl
    | some part => exact ih i part found fun path r' reached => away _ _ (.within visited found reached)

def Substitution.at (path : Path) (x : Executor σ) : Substitution σ :=
  fun other => if other = path then some x else none

theorem below_at (i : Nat) (path : Path) (x : Executor σ) :
    (Substitution.at (i :: path) x).below i = Substitution.at path x := by
  funext other
  simp [Substitution.below, Substitution.at]

theorem below_at_other {i j : Nat} (other : j ≠ i) (path : Path) (x : Executor σ) :
    (Substitution.at (i :: path) x).below j = fun _ => none := by
  funext other
  simp [Substitution.below, Substitution.at, *]

theorem assemble_fails {e : Expr} {run r : Run σ} {path : Path} (reached : Reaches on e run path r)
    {x : Executor σ} {fault : Error} {s : Run σ} (fails : x r = .error fault s) :
    assemble on (.at path x) e run = .error fault s := by
  induction reached with
  | here e run =>
    rw [assemble_here e (if_pos rfl)]
    exact fails
  | @within e part run r r' i path visited found rest ih =>
    have top : Substitution.at (i :: path) x [] = none := rfl
    rw [assemble_parts e top]
    refine Script.play_fails (ascends_script e) visited (fun j other => ?_) ?_
    · unfold assembled parts
      rw [below_at_other other]
      cases e.part? j with
      | none => rfl
      | some part =>
        funext run
        exact assemble_unreached fun _ _ _ => rfl
    · unfold assembled
      rw [found, below_at]
      exact ih fails

/-- Evaluation from a run skips the part with an index. -/
inductive Skips (on : Surroundings σ) : Expr → Run σ → Nat → Prop where
  | branch {condition yes no : Expr} {run r : Run σ} {v : Value} {b : Bool}
      (value : eval on condition run = .ok v r) (truth : v.asLogic = .ok b) :
      Skips on (conditional condition yes no) run (if b then 2 else 1)
  | decidedAnd {left right : Expr} {run r : Run σ} {v : Value} (value : eval on left run = .ok v r)
      (truth : v.asLogic = .ok false) : Skips on (binary .and left right) run 1
  | decidedOr {left right : Expr} {run r : Run σ} {v : Value} (value : eval on left run = .ok v r)
      (truth : v.asLogic = .ok true) : Skips on (binary .or left right) run 1
  | fallback {ref : Reference Expr} {run : Run σ} {raw : String}
      (defined : on.symbols.read? ref.name = some raw) : Skips on (reference ref) run 2
  | bound {ref : Reference Expr} {run : Run σ} {i : Nat} (undefined : on.symbols.read? ref.name = none)
      (slice : i < 2) : Skips on (reference ref) run i
  | behind {e part : Expr} {run r s : Run σ} {fault : Error} {i j : Nat}
      (visited : (i, r) ∈ visits on e run) (found : e.part? i = some part)
      (fails : eval on part r = .error fault s) (later : i < j) : Skips on e run j

theorem visits_truthScript {xs : Nat → Executor σ} {i k : Nat} {next : Bool → Script σ}
    {run r s : Run σ} {v : Value} {b : Bool} (value : xs i run = .ok v s) (truth : v.asLogic = .ok b)
    (visited : (k, r) ∈ (truthScript i next).visits xs run) :
    k = i ∨ (k, r) ∈ (next b).visits xs s := by
  rcases Script.mem_visits_ask visited with ⟨here, _⟩ | ⟨w, t, again, later⟩
  · exact Or.inl here
  · cases value.symm.trans again
    obtain ⟨c, same, later⟩ := Script.mem_visits_ofExcept later
    cases truth.symm.trans same
    exact Or.inr later

theorem visits_passOn {xs : Nat → Executor σ} {i k : Nat} {run r : Run σ}
    (visited : (k, r) ∈ (passOn i).visits xs run) : k = i := by
  rcases Script.mem_visits_ask visited with ⟨here, _⟩ | ⟨v, s, _, later⟩
  · exact here
  · cases later

theorem visits_sliceScript {xs : Nat → Executor σ} {text : String} {slice : Option (Slice Expr)}
    {result : String → Eval σ Value} {k : Nat} {run r : Run σ}
    (visited : (k, r) ∈ (sliceScript text slice fun kept => .finish (result kept)).visits xs run) :
    k < 2 := by
  match slice with
  | none => cases visited
  | some ⟨_, none⟩ =>
    rcases Script.mem_visits_ask visited with ⟨here, _⟩ | ⟨v, s, _, later⟩
    · omega
    · obtain ⟨start, _, later⟩ := Script.mem_visits_ofExcept later
      obtain ⟨_, _, later⟩ := Script.mem_visits_ofExcept later
      cases later
  | some ⟨_, some _⟩ =>
    rcases Script.mem_visits_ask visited with ⟨here, _⟩ | ⟨v, s, _, later⟩
    · omega
    · obtain ⟨start, _, later⟩ := Script.mem_visits_ofExcept later
      obtain ⟨_, _, later⟩ := Script.mem_visits_ofExcept later
      rcases Script.mem_visits_ask later with ⟨here, _⟩ | ⟨w, t, _, later⟩
      · omega
      · obtain ⟨count, _, later⟩ := Script.mem_visits_ofExcept later
        obtain ⟨_, _, later⟩ := Script.mem_visits_ofExcept later
        cases later

theorem visits_of_defined {ref : Reference Expr} {raw : String} {k : Nat} {run r : Run σ}
    (defined : on.symbols.read? ref.name = some raw)
    (visited : (k, r) ∈ visits on (reference ref) run) : k < 2 := by
  rw [visits, script, defined] at visited
  exact visits_sliceScript visited

theorem visits_of_undefined {ref : Reference Expr} {k : Nat} {run r : Run σ}
    (undefined : on.symbols.read? ref.name = none)
    (visited : (k, r) ∈ visits on (reference ref) run) : k = 2 := by
  rw [visits, script, undefined] at visited
  cases fallback : ref.fallback with
  | none =>
    rw [fallback] at visited
    cases visited
  | some e =>
    rw [fallback] at visited
    exact visits_passOn visited

theorem not_visits_of_skips {e : Expr} {run r : Run σ} {i : Nat} (skips : Skips on e run i) :
    (i, r) ∉ visits on e run := by
  intro visited
  cases skips with
  | @branch condition yes no _ s v b value truth =>
    have first : parts on (conditional condition yes no) 0 run = .ok v s := value
    rcases visits_truthScript first truth visited with here | later
    · split at here <;> cases here
    · have taken := visits_passOn later
      cases b <;> cases taken
  | @decidedAnd left right _ s v value truth =>
    have first : parts on (binary .and left right) 0 run = .ok v s := value
    rcases visits_truthScript first truth visited with here | later
    · cases here
    · cases later
  | @decidedOr left right _ s v value truth =>
    have first : parts on (binary .or left right) 0 run = .ok v s := value
    rcases visits_truthScript first truth visited with here | later
    · cases here
    · cases later
  | fallback defined => exact absurd (visits_of_defined defined visited) (Nat.lt_irrefl 2)
  | bound undefined slice =>
    have only := visits_of_undefined undefined visited
    omega
  | @behind _ part _ t s fault j _ before found fails later =>
    have failing : parts on e j t = .error fault s := (congrFun (parts_eq found) t).trans fails
    have last := Script.last_of_fails (ascends_script e) before failing visited
    omega

theorem not_reaches_of_skips {e : Expr} {run r : Run σ} {i : Nat} {path : Path}
    (skips : Skips on e run i) : ¬ Reaches on e run (i :: path) r := by
  intro reached
  cases reached with
  | within visited found rest => exact not_visits_of_skips skips visited

theorem assemble_strict {op : BinaryOp} (notAnd : op ≠ .and) (notOr : op ≠ .or) (left right : Expr)
    {sub : Substitution σ} (whole : sub [] = none) :
    assemble on sub (binary op left right) = (do
      Run.checkpoint
      let l ← assemble on (sub.below 0) left
      let r ← assemble on (sub.below 1) right
      Run.lift (op.apply on.math l r)) := by
  rw [assemble_parts _ whole, script]
  · rfl
  · exact notAnd
  · exact notOr

/-- Unselected parts never matter. Executors in the place of subexpressions that evaluation does not get to
leave the result and the run at the end as they are, with all the calls that the run holds; an executor that
fails in the place of one that it gets to is noticed; evaluation does not get to what it skips; and the other
operators run both of their operands, the left one first, whatever stands in their place. -/
theorem eval_unreached (on : Surroundings σ) (e : Expr) (run : Run σ) :
    (∀ sub : Substitution σ, (∀ path r, Reaches on e run path r → sub path = none) →
      assemble on sub e run = eval on e run) ∧
    (∀ path r, Reaches on e run path r → ∀ (x : Executor σ) fault s, x r = .error fault s →
      assemble on (.at path x) e run = .error fault s) ∧
    (∀ i, Skips on e run i → ∀ path r, ¬ Reaches on e run (i :: path) r) ∧
    ∀ op left right, op ≠ .and → op ≠ .or → ∀ sub : Substitution σ, sub [] = none →
      assemble on sub (binary op left right) = (do
        Run.checkpoint
        let l ← assemble on (sub.below 0) left
        let r ← assemble on (sub.below 1) right
        Run.lift (op.apply on.math l r)) := by
  refine ⟨?_, ?_, ?_, ?_⟩
  · intro sub away
    exact assemble_unreached away
  · intro path r reached x fault s fails
    exact assemble_fails reached fails
  · intro i skips path r
    exact not_reaches_of_skips skips
  · intro op left right notAnd notOr sub whole
    exact assemble_strict notAnd notOr left right whole

end TemplateExpr.Expr
