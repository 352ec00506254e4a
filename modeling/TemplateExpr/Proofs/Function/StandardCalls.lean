import TemplateExpr.Function.Standard
import TemplateExpr.Proofs.Decimal.IntegerViews
import TemplateExpr.Proofs.Evaluation.Outcomes
import TemplateExpr.Proofs.Function.Calls
import Mathlib.Data.String.Basic
/-!
Calls of the standard functions. Their bodies only answer, so a call of values that the parameters take as they are
comes to the same in every run whose time is not up. The functions on parts of texts count characters.
-/
namespace TemplateExpr.Standard

/-- Whatever the host program and the run, a call comes to `v`, if the time of the run is not up. -/
def Answers (clock : Timestamp) (name : String) (values : List Value) (v : Value) : Prop :=
  ∀ (σ : Type) (run : Run σ), run.overdue = false →
    Eval.outcome ((registry clock).invoke name values) run = .ok v

def Offers (σ : Type) (clock : Timestamp) (name : String) (values : List Value)
    (answer : List Value → Outcome) : Prop :=
  ∃ f : Function σ, (registry clock).get? name = some f ∧ f.body = answering answer ∧ f.returns = none ∧
    ∀ run, f.ready values run = .ok values run

variable {clock : Timestamp}

theorem answers_of_offers {name : String} {values : List Value} {answer : List Value → Outcome} {v : Value}
    (offers : ∀ σ, Offers σ clock name values answer) (done : answer values = .value v) :
    Answers clock name values v := by
  intro σ run timely
  obtain ⟨f, found, body, returns, ready⟩ := offers σ
  have performed : f.perform values run = .ok v (run.performed f values) := by
    have timely : (run.performed f values).overdue = false := by
      rw [← timely, Run.overdue, Run.performed, body]
      rfl
    rw [Function.perform_eq, timely, body, answering, done]
    rfl
  have result : f.coerceResult v = .ok v := by rw [Function.coerceResult, returns]
  rw [Registry.invoke, found]
  dsimp only
  rw [Function.invoke_eq, Eval.outcome_bind (ready run), Eval.outcome_bind performed, result]
  rfl

section Texts

variable {σ : Type}

theorem offers_length (t : String) :
    Offers σ clock "length" [.text t] (unary fun a => .value (length a)) := by
  refine ⟨?f, ?found, ?takes⟩
  case found =>
    simp [registry, functions, Registry.registerAll, Registry.get?_register]
    rfl
  case takes => exact ⟨rfl, rfl, fun run => rfl⟩

theorem offers_find (t k : String) :
    Offers σ clock "find" [.text t, .text k] (binary fun a b => .value (find a b)) := by
  refine ⟨?f, ?found, ?takes⟩
  case found =>
    simp [registry, functions, Registry.registerAll, Registry.get?_register]
    rfl
  case takes => exact ⟨rfl, rfl, fun run => rfl⟩

theorem offers_substr (t : String) (s c : Decimal) :
    Offers σ clock "substr" [.text t, .number s, .number c] (ternary fun a b c => .ofExcept (substr a b c)) := by
  refine ⟨?f, ?found, ?takes⟩
  case found =>
    simp [registry, functions, Registry.registerAll, Registry.get?_register]
    rfl
  case takes => exact ⟨rfl, rfl, fun run => rfl⟩

theorem answers_length (t : String) : Answers clock "length" [.text t] (.ofInt t.length) :=
  answers_of_offers (fun _ => offers_length t) rfl

theorem answers_find (t k : String) : Answers clock "find" [.text t, .text k] (find (.text t) (.text k)) :=
  answers_of_offers (fun _ => offers_find t k) rfl

theorem answers_substr {t : String} {s c : Decimal} {v : Value}
    (done : substr (.text t) (.number s) (.number c) = .ok v) :
    Answers clock "substr" [.text t, .number s, .number c] v :=
  answers_of_offers (fun _ => offers_substr t s c) (congrArg Outcome.ofExcept done)

theorem integer_ofInt (function : String) {n : ℤ} (fits : FitsSigned 64 n) : integer function (.ofInt n) = .ok n := by
  have number : (Value.ofInt n).asNumber = .ok (Decimal.ofInt n) := rfl
  have whole : (Decimal.ofInt n).truncInt64? = some n := by
    rw [Decimal.truncInt64?_eq (Decimal.isNormal_ofInt n), Decimal.toRat_ofInt, Decimal.towardsZero_intCast, if_pos fits]
  rw [integer, number]
  dsimp only [Bind.bind, Except.bind]
  rw [whole]
  rfl

theorem toText_ne_empty (d : Decimal) : d.toText ≠ "" := by
  have digits : d.digits ≠ [] := by
    rw [Decimal.digits, Digits.ofNat_eq_toDigits]
    exact List.ne_nil_of_length_pos Nat.length_toDigits_pos
  have plain : d.plainChars ≠ [] := by
    unfold Decimal.plainChars
    dsimp only
    split
    · split
      · exact digits
      · simp [digits]
    · split <;> simp
  have scientific : d.scientificChars ≠ [] := by simp [Decimal.scientificChars]
  have chars : d.toChars ≠ [] := by
    unfold Decimal.toChars
    intro empty
    have behind := (List.append_eq_nil_iff.mp empty).2
    split at behind
    · exact scientific behind
    · exact plain behind
  intro empty
  apply chars
  rw [Decimal.toText] at empty
  exact String.ofList_eq_empty_iff.mp empty

theorem substr_ofInt (t : String) {s c : ℤ} (start : FitsSigned 64 s) (count : FitsSigned 64 c) :
    substr (.text t) (.ofInt s) (.ofInt c) =
      .ok (.text (String.ofList ((t.toList.drop s.toNat).take c.toNat))) := by
  have some_ : ¬ (Value.ofInt c).asText.isEmpty = true := by
    rw [String.isEmpty_iff]
    exact toText_ne_empty _
  have chars : ((t.drop s.toNat).take c.toNat).copy = String.ofList ((t.toList.drop s.toNat).take c.toNat) := by
    apply String.toList_inj.mp
    simp
  unfold substr
  rw [integer_ofInt _ start, integer_ofInt _ count]
  change (if (Value.ofInt c).asText.isEmpty = true then _ else _) = _
  rw [if_neg some_, ← chars]
  rfl

end Texts

end TemplateExpr.Standard
