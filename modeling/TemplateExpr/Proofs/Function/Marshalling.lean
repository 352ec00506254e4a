import TemplateExpr.Proofs.Function.Arity
import TemplateExpr.Proofs.Function.Calls
/-!
What a function makes of the arguments of a call that is not refused. Each place is supplied, with its argument or
with the default of its parameter, and converted to the kind declared for it before the next one is supplied; so
the first conversion that fails is the one that is reported.
-/
namespace TemplateExpr

variable {σ : Type}

namespace Function

/-- The kind declared for a place, counted from 0, if one is: that of its parameter or of further arguments. -/
def declared (f : Function σ) (i : Nat) : Option Kind :=
  match f.parameters[i]? with
  | some p => p.kind
  | none => f.variadic.join

def places (f : Function σ) (given : Nat) : Nat := max f.parameters.length given

/-- What is there for a place before it is converted. The host program computes some of the defaults. -/
inductive Supplies (f : Function σ) (values : List Value) (i : Nat) : σ → Value → σ → Prop where
  | argument {host : σ} {v : Value} (given : values[i]? = some v) : Supplies f values i host v host
  | constant {host : σ} {v : Value} {p : Parameter σ} (omitted : values.length ≤ i)
      (found : f.parameters[i]? = some p) (default : p.fallback = some (.constant v)) :
      Supplies f values i host v host
  | computed {host : σ} {p : Parameter σ} {provide : σ → Value × σ} (omitted : values.length ≤ i)
      (found : f.parameters[i]? = some p) (default : p.fallback = some (.computed provide)) :
      Supplies f values i host (provide host).1 (provide host).2

def converted (f : Function σ) (i : Nat) (v : Value) : Except Error Value :=
  match f.declared i with
  | none => .ok v
  | some kind => v.convert kind

/-- The first places are supplied in order, and each value is in the kind declared for its place before the next
one is supplied. -/
inductive Receives (f : Function σ) (values : List Value) (start : σ) : Nat → List Value → σ → Prop where
  | nothing : Receives f values start 0 [] start
  | next {i : Nat} {received : List Value} {host host' : σ} {v w : Value}
      (before : Receives f values start i received host) (supplied : f.Supplies values i host v host')
      (fits : f.converted i v = .ok w) : Receives f values start (i + 1) (received ++ [w]) host'

variable {f : Function σ} {values received : List Value} {start host host' : σ} {i : Nat} {v w : Value}

theorem Supplies.inside (supplied : f.Supplies values i host v host') : i < f.places values.length := by
  unfold places
  cases supplied with
  | argument given =>
    have inside := (List.getElem?_eq_some_iff.mp given).1
    omega
  | constant _ found _ =>
    have inside := (List.getElem?_eq_some_iff.mp found).1
    omega
  | computed _ found _ =>
    have inside := (List.getElem?_eq_some_iff.mp found).1
    omega

theorem Receives.length_eq (receives : f.Receives values start i received host) :
    received.length = i ∧ i ≤ f.places values.length := by
  induction receives with
  | nothing => simp
  | next _ supplied _ ih =>
    have inside := supplied.inside
    simp [ih.1]
    omega

variable {run : Run σ}

end Function

end TemplateExpr
