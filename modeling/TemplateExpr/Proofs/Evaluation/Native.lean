import TemplateExpr.Expr.Evaluation
/-!
What values and operators fail with: conversions, arithmetic, bounds and variables. Cancellation, the limit on
time and the failures of functions are none of these.
-/
namespace TemplateExpr

variable {σ α β : Type}

/-- Failures that the operators of the language raise. -/
inductive Error.Native : Error → Prop where
  | conversion (source target : Kind) (text : String) : Native (.conversion source target text)
  | unknownSymbol (name : String) : Native (.unknownSymbol name)
  | fractional (position : Nat) (text : String) : Native (.fractional position text)
  | outOfRange (position : Nat) (text : String) : Native (.outOfRange position text)
  | arithmetic (fault : ArithmeticFault) : Native (.arithmetic fault)

def FailsNatively (result : Except Error α) : Prop := ∀ e, result = .error e → e.Native

theorem failsNatively_ok (a : α) : FailsNatively (.ok a) := by
  intro e fails
  cases fails

theorem failsNatively_error {e : Error} (native : e.Native) : FailsNatively (.error e : Except Error α) := by
  intro e' fails
  cases fails
  exact native

theorem failsNatively_bind {x : Except Error α} {f : α → Except Error β} (first : FailsNatively x)
    (rest : ∀ a, FailsNatively (f a)) : FailsNatively (x >>= f) := by
  cases x with
  | ok a => exact rest a
  | error e => exact failsNatively_error (first e rfl)

theorem failsNatively_map {x : Except Error α} {f : α → β} (first : FailsNatively x) :
    FailsNatively (x.map f) := by
  cases x with
  | ok a => exact failsNatively_ok _
  | error e => exact failsNatively_error (first e rfl)

section Values

variable (v l r : Value)

theorem failsNatively_asNumber : FailsNatively v.asNumber := by
  cases v with
  | text s =>
    rw [Value.asNumber]
    split
    · exact failsNatively_ok _
    · exact failsNatively_error (.conversion _ _ _)
  | _ => exact failsNatively_ok _

theorem failsNatively_asLogic : FailsNatively v.asLogic := by
  cases v with
  | text s =>
    unfold Value.asLogic
    dsimp only
    split
    · exact failsNatively_ok _
    · split
      · exact failsNatively_ok _
      · exact failsNatively_error (.conversion _ _ _)
  | _ => exact failsNatively_ok _

theorem failsNatively_asDate : FailsNatively v.asDate := by
  cases v with
  | text s =>
    rw [Value.asDate]
    split
    · exact failsNatively_ok _
    · exact failsNatively_error (.conversion _ _ _)
  | number n =>
    rw [Value.asDate]
    split
    · exact failsNatively_ok _
    · exact failsNatively_error (.conversion _ _ _)
  | _ => exact failsNatively_ok _

theorem failsNatively_convert (kind : Kind) : FailsNatively (v.convert kind) := by
  unfold Value.convert
  split
  · exact failsNatively_ok v
  · cases kind with
    | text => exact failsNatively_ok _
    | number => exact failsNatively_map (failsNatively_asNumber v)
    | logic => exact failsNatively_map (failsNatively_asLogic v)
    | date => exact failsNatively_map (failsNatively_asDate v)

theorem failsNatively_arithmetic (result : Except ArithmeticFault Decimal) :
    FailsNatively (arithmetic result) := by
  cases result with
  | ok n => exact failsNatively_ok _
  | error fault => exact failsNatively_error (.arithmetic fault)

theorem failsNatively_both {form : Value → Except Error α} (forms : ∀ v, FailsNatively (form v))
    {f : α → α → Except Error β} (rest : ∀ a b, FailsNatively (f a b)) :
    FailsNatively (do f (← form l) (← form r)) :=
  failsNatively_bind (forms l) fun a => failsNatively_bind (forms r) (rest a)

theorem failsNatively_bitwise (truth : Bool → Bool → Bool) (bits : Int → Int → Int) :
    FailsNatively (bitwise truth bits l r) := by
  unfold bitwise
  split
  · exact failsNatively_ok _
  · exact failsNatively_both _ _ failsNatively_asNumber fun m n => failsNatively_ok _

theorem failsNatively_shift (right : Bool) : FailsNatively (shift right l r) := by
  refine failsNatively_bind (failsNatively_asNumber r) fun n => ?_
  split
  · exact failsNatively_error (.arithmetic _)
  · exact failsNatively_bind (failsNatively_asNumber l) fun m => failsNatively_ok _

theorem BinaryOp.failsNatively_apply (math : MathSettings) (op : BinaryOp) :
    FailsNatively (op.apply math l r) := by
  cases op with
  | before | after => exact failsNatively_both l r failsNatively_asDate fun _ _ => failsNatively_ok _
  | and | or => exact failsNatively_both l r failsNatively_asLogic fun _ _ => failsNatively_ok _
  | add | sub => exact failsNatively_both l r failsNatively_asNumber fun _ _ => failsNatively_ok _
  | mul | div | divFloor | divTrunc | rem | power =>
    exact failsNatively_both l r failsNatively_asNumber fun _ _ => failsNatively_arithmetic _
  | bitAnd | bitOr | xor => exact failsNatively_bitwise l r _ _
  | shiftLeft | shiftRight => exact failsNatively_shift l r _
  | _ => exact failsNatively_ok _

theorem UnaryOp.failsNatively_apply (op : UnaryOp) : FailsNatively (op.apply v) := by
  cases op with
  | negate | plus => exact failsNatively_bind (failsNatively_asNumber v) fun _ => failsNatively_ok _
  | not => exact failsNatively_bind (failsNatively_asLogic v) fun _ => failsNatively_ok _
  | complement =>
    unfold UnaryOp.apply
    dsimp only
    split
    · exact failsNatively_ok _
    · exact failsNatively_bind (failsNatively_asNumber v) fun _ => failsNatively_ok _

theorem failsNatively_boundIndex (position : Nat) : FailsNatively (boundIndex position v) := by
  refine failsNatively_bind (failsNatively_asNumber v) fun n => ?_
  split
  · exact failsNatively_error (.fractional _ _)
  · split
    · exact failsNatively_ok _
    · exact failsNatively_error (.outOfRange _ _)

end Values

theorem failsNatively_withinLength (position index most : Nat) :
    FailsNatively (withinLength position index most) := by
  unfold withinLength
  split
  · exact failsNatively_error (.outOfRange _ _)
  · exact failsNatively_ok _

end TemplateExpr
