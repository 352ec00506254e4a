import TemplateExpr.Function.Registry
import TemplateExpr.Proofs.Evaluation.Outcomes
/-!
How many arguments a call may have. It is refused if there are more than parameters and none of them may be further
ones, or if a parameter behind them needs an argument; the first such parameter is reported.
-/
namespace TemplateExpr

variable {σ : Type}

/-- The parameter at `i`, counted from 0, is the first one behind the given arguments that needs one. -/
structure FirstNeeded (parameters : List (Parameter σ)) (given i : Nat) (p : Parameter σ) : Prop where
  behind : given ≤ i
  found : parameters[i]? = some p
  needed : p.fallback = none
  first : ∀ j q, given ≤ j → j < i → parameters[j]? = some q → q.fallback ≠ none

namespace Function

inductive Refuses (f : Function σ) (given : Nat) : FunctionFault → Prop where
  | tooMany (closed : f.variadic = none) (more : f.parameters.length < given) :
      Refuses f given (.tooManyArguments f.name f.parameters.length given)
  | missing {i : Nat} {p : Parameter σ} (first : FirstNeeded f.parameters given i p) :
      Refuses f given (.missingArgument f.name (i + 1) p.name)

theorem firstNeeded_zero_iff {q p : Parameter σ} {rest : List (Parameter σ)} {i : Nat} :
    FirstNeeded (q :: rest) 0 i p ↔
      q.fallback = none ∧ i = 0 ∧ q = p ∨
        q.fallback ≠ none ∧ ∃ k, i = k + 1 ∧ FirstNeeded rest 0 k p := by
  constructor
  · rintro ⟨_, found, needed, first⟩
    cases i with
    | zero =>
      cases found
      exact Or.inl ⟨needed, rfl, rfl⟩
    | succ k =>
      refine Or.inr ⟨first 0 q (Nat.le_refl 0) (Nat.succ_pos k) rfl, k, rfl, Nat.zero_le k, found, needed, ?_⟩
      intro j r _ before there
      exact first (j + 1) r (Nat.zero_le _) (Nat.succ_lt_succ before) there
  · rintro (⟨needed, rfl, rfl⟩ | ⟨has, k, rfl, _, found, needed, first⟩)
    · exact ⟨Nat.le_refl 0, rfl, needed, fun j _ _ before => absurd before (Nat.not_lt_zero j)⟩
    · refine ⟨Nat.zero_le _, found, needed, fun j r _ before there => ?_⟩
      cases j with
      | zero =>
        cases there
        exact has
      | succ j => exact first j r (Nat.zero_le j) (Nat.lt_of_succ_lt_succ before) there

theorem firstNeeded_succ_iff {q p : Parameter σ} {rest : List (Parameter σ)} {given i : Nat} :
    FirstNeeded (q :: rest) (given + 1) i p ↔ ∃ k, i = k + 1 ∧ FirstNeeded rest given k p := by
  constructor
  · rintro ⟨behind, found, needed, first⟩
    obtain ⟨k, rfl⟩ : ∃ k, i = k + 1 := ⟨i - 1, by omega⟩
    refine ⟨k, rfl, by omega, found, needed, fun j r later before there => ?_⟩
    exact first (j + 1) r (by omega) (by omega) there
  · rintro ⟨k, rfl, behind, found, needed, first⟩
    refine ⟨by omega, found, needed, fun j r later before there => ?_⟩
    obtain ⟨j, rfl⟩ : ∃ k, j = k + 1 := ⟨j - 1, by omega⟩
    exact first j r (by omega) (by omega) there

theorem findSome?_eq_some_iff (parameters : List (Parameter σ)) (start given index : Nat) (p : Parameter σ) :
    (((parameters.zipIdx start).drop given).findSome? fun (parameter, index) =>
        if parameter.fallback.isNone then some (index, parameter) else none) = some (index, p) ↔
      ∃ i, index = start + i ∧ FirstNeeded parameters given i p := by
  induction parameters generalizing start given with
  | nil =>
    constructor
    · intro h
      simp at h
    · rintro ⟨i, _, first⟩
      cases first.found
  | cons q rest ih =>
    cases given with
    | succ given =>
      rw [List.zipIdx_cons, List.drop_succ_cons, ih]
      simp only [firstNeeded_succ_iff]
      constructor
      · rintro ⟨i, rfl, first⟩
        exact ⟨i + 1, by omega, i, rfl, first⟩
      · rintro ⟨_, rfl, i, rfl, first⟩
        exact ⟨i, by omega, first⟩
    | zero =>
      have rest := ih (start + 1) 0
      rw [List.drop_zero] at rest
      rw [List.zipIdx_cons, List.drop_zero, List.findSome?_cons]
      simp only [firstNeeded_zero_iff]
      cases has : q.fallback with
      | none =>
        simp only [Option.isNone_none, if_true, Option.some.injEq, Prod.mk.injEq, ne_eq, not_true, false_and,
          or_false, true_and]
        constructor
        · rintro ⟨rfl, rfl⟩
          exact ⟨0, rfl, rfl, rfl⟩
        · rintro ⟨_, rfl, rfl, rfl⟩
          exact ⟨rfl, rfl⟩
      | some fallback =>
        simp only [Option.isNone_some, Bool.false_eq_true, if_false, rest]
        constructor
        · rintro ⟨i, rfl, first⟩
          exact ⟨i + 1, by omega, Or.inr ⟨by simp, i, rfl, first⟩⟩
        · rintro ⟨_, rfl, ⟨none, _⟩ | ⟨_, i, rfl, first⟩⟩
          · cases none
          · exact ⟨i, by omega, first⟩

variable {f : Function σ} {values : List Value} {run : Run σ}

end Function

end TemplateExpr
