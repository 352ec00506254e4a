import TemplateExpr.Function.Basic
/-!
The functions that expressions may call. There is one of each name.
-/
namespace TemplateExpr

structure Registry (σ : Type) where
  functions : List (Function σ) := []

namespace Registry

variable {σ : Type}

def get? (registry : Registry σ) (name : String) : Option (Function σ) :=
  registry.functions.find? (·.name == name)

def register (registry : Registry σ) (f : Function σ) : Registry σ :=
  ⟨registry.functions.filter (·.name != f.name) ++ [f]⟩

theorem find?_filter_self (functions : List (Function σ)) (name : String) :
    (functions.filter (·.name != name)).find? (·.name == name) = none := by
  rw [List.find?_eq_none]
  intro f mem
  have kept := (List.mem_filter.mp mem).2
  simpa using kept

theorem find?_filter_ne {functions : List (Function σ)} {name key : String} (h : key ≠ name) :
    (functions.filter (·.name != name)).find? (·.name == key) =
      functions.find? (·.name == key) := by
  induction functions with
  | nil => rfl
  | cons f functions ih =>
    by_cases same : f.name = name
    · have other : (f.name == key) = false := by
        rw [same]
        exact beq_eq_false_iff_ne.mpr (Ne.symm h)
      have dropped : (f.name != name) = false := by simp [same]
      rw [List.filter_cons_of_neg (by simp [dropped]), ih, List.find?_cons_of_neg (by simp [other])]
    · rw [List.filter_cons_of_pos (by simp [same]), List.find?_cons, List.find?_cons, ih]

theorem get?_register (registry : Registry σ) (f : Function σ) (name : String) :
    (registry.register f).get? name = if name = f.name then some f else registry.get? name := by
  unfold get? register
  rw [List.find?_append]
  split
  · rename_i same
    rw [same, find?_filter_self]
    simp
  · rename_i other
    rw [find?_filter_ne other]
    simp [beq_eq_false_iff_ne.mpr (Ne.symm other)]

def registerAll (registry : Registry σ) (functions : List (Function σ)) : Registry σ :=
  functions.foldl register registry

def names (registry : Registry σ) : List String :=
  (registry.functions.map Function.name).mergeSort fun a b => decide (a ≤ b)

def size (registry : Registry σ) : Nat := registry.functions.length

def isEmpty (registry : Registry σ) : Bool := registry.functions.isEmpty

def check (registry : Registry σ) (name : String) (given : Nat) : Except Error Unit :=
  match registry.get? name with
  | none => .error (.function (.unknown name))
  | some f => (f.checkArity given).mapError .function

def invoke (registry : Registry σ) (name : String) (values : List Value) : Eval σ Value :=
  match registry.get? name with
  | none => throw (.function (.unknown name))
  | some f => f.invoke values

end Registry

end TemplateExpr
