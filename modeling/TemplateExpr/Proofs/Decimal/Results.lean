import TemplateExpr.Decimal.Power
import TemplateExpr.Decimal.Text
import TemplateExpr.Proofs.Decimal.NormalForm
/-!
Computations with decimals. An operation takes texts, integers, digits with a scale and the results of earlier
operations. Some operations check the scale of their result and some rely on the scales of their operands; either
way every result is normal, and so the results that denote the same number are the same.
-/
namespace TemplateExpr.Decimal

variable {a b : Decimal}

section Exact

theorem isNormal_zero : zero.IsNormal := isNormal_ofInt 0

theorem isNormal_one : one.IsNormal := isNormal_ofInt 1

theorem align_scale (ha : a.IsNormal) (hb : b.IsNormal) :
    minScale ≤ (align a b).2.2 ∧ (align a b).2.2 ≤ maxScale := by
  have least := ha.minScale_le
  constructor
  · exact Int.le_trans least (Int.le_max_left a.scale b.scale)
  · exact Int.max_le.mpr ⟨ha.le_maxScale, hb.le_maxScale⟩

theorem isNormal_aligned (ha : a.IsNormal) (hb : b.IsNormal) (unscaled : Int) :
    (normalize unscaled (align a b).2.2).IsNormal := by
  obtain ⟨low, high⟩ := align_scale ha hb
  exact isNormal_normalize low high

theorem isNormal_add (ha : a.IsNormal) (hb : b.IsNormal) : (add a b).IsNormal := isNormal_aligned ha hb _

theorem isNormal_sub (ha : a.IsNormal) (hb : b.IsNormal) : (sub a b).IsNormal := isNormal_aligned ha hb _

theorem isNormal_of_natAbs {n : Int} (ha : a.IsNormal) (same : n.natAbs = a.unscaled.natAbs) :
    IsNormal ⟨n, a.scale⟩ := by
  constructor
  · intro none
    apply ha.scale_of_zero
    simp only at none
    omega
  · exact ha.minScale_le
  · exact ha.le_maxScale
  · intro nonzero divides
    apply ha.stripped <;> simp only at nonzero divides <;> omega

theorem isNormal_neg (ha : a.IsNormal) : (neg a).IsNormal := isNormal_of_natAbs ha (Int.natAbs_neg _)

theorem isNormal_abs (ha : a.IsNormal) : (abs a).IsNormal := isNormal_of_natAbs ha (Int.natAbs_natCast _)

end Exact

section Checked

/-- If there is a result, it is normal. -/
def Normalizes (result : Except ArithmeticFault Decimal) : Prop := ∀ d, result = .ok d → d.IsNormal

theorem normalizes_ok (ha : a.IsNormal) : Normalizes (.ok a) := by
  intro d same
  cases same
  exact ha

theorem normalizes_error (fault : ArithmeticFault) : Normalizes (.error fault) := by
  intro d same
  cases same

theorem normalizes_toOption {result : Except ArithmeticFault Decimal} (normal : Normalizes result) {d : Decimal}
    (done : result.toOption = some d) : d.IsNormal := by
  apply normal
  cases result with
  | error fault => cases done
  | ok value =>
    cases done
    rfl

theorem normalizes_checked (unscaled scale : Int) : Normalizes (checked unscaled scale) :=
  fun _ done => isNormal_checked done

theorem normalizes_bind {result : Except ArithmeticFault Decimal} {f : Decimal → Except ArithmeticFault Decimal}
    (first : Normalizes result) (rest : ∀ d, d.IsNormal → Normalizes (f d)) : Normalizes (result >>= f) := by
  cases done : result with
  | error fault => exact normalizes_error fault
  | ok d => exact rest d (first d done)

theorem normalizes_roundDropping (unscaled scale : Int) (drop : Nat) (sticky : Bool) (mode : RoundingMode) :
    Normalizes (roundDropping unscaled scale drop sticky mode) := by
  unfold roundDropping
  extract_lets beyond kept rest half
  split
  · exact normalizes_checked _ _
  · split
    · exact normalizes_error _
    · exact normalizes_checked _ _
    · exact normalizes_checked _ _

theorem normalizes_roundSignificant (unscaled scale : Int) (sticky : Bool) (math : MathSettings) :
    Normalizes (roundSignificant unscaled scale sticky math) := by
  unfold roundSignificant
  dsimp only
  split
  · exact normalizes_checked _ _
  · exact normalizes_roundDropping _ _ _ _ _

theorem normalizes_round (d : Decimal) (math : MathSettings) : Normalizes (d.round math) :=
  normalizes_roundSignificant _ _ _ _

theorem normalizes_roundToScale (ha : a.IsNormal) (places : Int) (mode : RoundingMode) :
    Normalizes (a.roundToScale places mode) := by
  unfold roundToScale
  dsimp only
  split
  · exact normalizes_ok ha
  · exact normalizes_roundDropping _ _ _ _ _

theorem normalizes_checkedMul (a b : Decimal) : Normalizes (checkedMul a b) := normalizes_checked _ _

theorem normalizes_divExact (a b : Decimal) : Normalizes (divExact a b) := by
  unfold divExact
  dsimp only
  split
  · exact normalizes_error _
  · split
    · exact normalizes_error _
    · exact normalizes_checked _ _

theorem normalizes_div (a b : Decimal) (math : MathSettings) : Normalizes (div a b math) := by
  unfold div
  dsimp only
  split
  · exact normalizes_error _
  · split
    · exact normalizes_ok isNormal_zero
    · split
      · exact normalizes_divExact a b
      · split
        · exact normalizes_error _
        · exact normalizes_roundSignificant _ _ _ _

theorem normalizes_divFloor (a b : Decimal) : Normalizes (divFloor a b) := by
  unfold divFloor
  split
  · exact normalizes_error _
  · exact normalizes_ok (isNormal_ofInt _)

theorem normalizes_divTrunc (a b : Decimal) : Normalizes (divTrunc a b) := by
  unfold divTrunc
  split
  · exact normalizes_error _
  · exact normalizes_ok (isNormal_ofInt _)

theorem normalizes_rem (ha : a.IsNormal) (hb : b.IsNormal) : Normalizes (rem a b) := by
  unfold rem
  split
  · exact normalizes_error _
  · exact normalizes_ok (isNormal_aligned ha hb _)

theorem normalizes_powRounded (math : MathSettings) {result : Decimal} (base : Decimal) (n : Nat)
    (normal : result.IsNormal) : Normalizes (powRounded math result base n) := by
  induction n using Nat.strongRecOn generalizing result base with
  | ind n ih =>
    rw [powRounded]
    split
    · exact normalizes_ok normal
    · have rest (result : Decimal) (normal : result.IsNormal) :
          Normalizes (if n / 2 = 0 then pure result
            else do powRounded math result (← (← checkedMul base base).round math) (n / 2)) := by
        split
        · exact normalizes_ok normal
        · have less : n / 2 < n := by omega
          refine normalizes_bind (normalizes_checkedMul base base) fun product _ => ?_
          exact normalizes_bind (normalizes_round product math) fun square _ => ih (n / 2) less square normal
      dsimp only
      split
      · refine normalizes_bind (normalizes_checkedMul result base) fun product _ => ?_
        exact normalizes_bind (normalizes_round product math) rest
      · exact rest result normal

theorem normalizes_powNatural (b : Decimal) (n : Nat) (math : MathSettings) :
    Normalizes (powNatural b n math) := by
  unfold powNatural
  split
  · dsimp only
    split
    · exact normalizes_error _
    · split
      · exact normalizes_checked _ _
      · exact normalizes_error _
  · exact normalizes_bind (normalizes_powRounded _ b n isNormal_one) fun d _ => normalizes_round d math

theorem normalizes_pow (b exponent : Decimal) (math : MathSettings) : Normalizes (pow b exponent math) := by
  unfold pow
  split
  · split
    · exact normalizes_error _
    · split
      · exact normalizes_ok isNormal_one
      · refine normalizes_bind (normalizes_powNatural b _ math) fun magnitude normal => ?_
        split
        · exact normalizes_ok normal
        · exact normalizes_div one magnitude math
  · split
    · exact normalizes_error _
    · exact normalizes_round _ math

theorem isNormal_ofDigits? {negative : Bool} {whole fraction : List Char} {exponent : Int} {d : Decimal}
    (read : ofDigits? negative whole fraction exponent = some d) : d.IsNormal := by
  unfold ofDigits? at read
  dsimp only at read
  split at read
  · exact normalizes_toOption (normalizes_checked _ _) read
  · cases read

theorem isNormal_ofText? {text : String} {d : Decimal} (read : ofText? text = some d) : d.IsNormal := by
  have mantissa (negative : Bool) (cs : List Char) (exponent : Int)
      (read : ofMantissa? negative cs exponent = some d) : d.IsNormal := by
    unfold ofMantissa? at read
    dsimp only at read
    split at read
    · exact isNormal_ofDigits? read
    · cases read
  obtain ⟨power, _, signed⟩ := Option.bind_eq_some_iff.mp read
  unfold ofSigned? at signed
  split at signed
  · exact mantissa true _ power signed
  · exact mantissa false _ power signed
  · exact mantissa false _ power signed

end Checked

/-- An operation on decimals. Operands are results of earlier operations, counted from 0. -/
inductive Operation where
  | ofText (text : String)
  | ofInt (n : Int)
  | checked (unscaled scale : Int)
  | add (a b : Nat)
  | sub (a b : Nat)
  | neg (a : Nat)
  | abs (a : Nat)
  | checkedMul (a b : Nat)
  | div (a b : Nat) (math : MathSettings)
  | divFloor (a b : Nat)
  | divTrunc (a b : Nat)
  | rem (a b : Nat)
  | pow (a exponent : Nat) (math : MathSettings)
  | round (a : Nat) (math : MathSettings)
  | roundToScale (a : Nat) (places : Int) (mode : RoundingMode)
  deriving DecidableEq

section Sequences

variable (results : List Decimal)

def perform₁ (f : Decimal → Except ArithmeticFault Decimal) (a : Nat) : Option Decimal :=
  results[a]?.bind fun x => (f x).toOption

def perform₂ (f : Decimal → Decimal → Except ArithmeticFault Decimal) (a b : Nat) : Option Decimal :=
  results[a]?.bind fun x => results[b]?.bind fun y => (f x y).toOption

def perform : Operation → Option Decimal
  | .ofText text => ofText? text
  | .ofInt n => some (ofInt n)
  | .checked unscaled scale => (checked unscaled scale).toOption
  | .add a b => perform₂ results (fun x y => .ok (add x y)) a b
  | .sub a b => perform₂ results (fun x y => .ok (sub x y)) a b
  | .neg a => perform₁ results (fun x => .ok (neg x)) a
  | .abs a => perform₁ results (fun x => .ok (abs x)) a
  | .checkedMul a b => perform₂ results checkedMul a b
  | .div a b math => perform₂ results (fun x y => div x y math) a b
  | .divFloor a b => perform₂ results divFloor a b
  | .divTrunc a b => perform₂ results divTrunc a b
  | .rem a b => perform₂ results rem a b
  | .pow a exponent math => perform₂ results (fun x y => pow x y math) a exponent
  | .round a math => perform₁ results (fun x => round x math) a
  | .roundToScale a places mode => perform₁ results (fun x => roundToScale x places mode) a

/-- All results once the operations have been performed one after the other. One that fails adds nothing. -/
def performAll (results : List Decimal) : List Operation → List Decimal
  | [] => results
  | op :: rest => performAll (results ++ (perform results op).toList) rest

variable {results}

theorem isNormal_perform₁ (normal : ∀ d ∈ results, d.IsNormal) {f : Decimal → Except ArithmeticFault Decimal}
    (keeps : ∀ x, x.IsNormal → Normalizes (f x)) {a : Nat} {d : Decimal}
    (done : perform₁ results f a = some d) : d.IsNormal := by
  obtain ⟨x, first, result⟩ := Option.bind_eq_some_iff.mp done
  have operand := normal x (List.mem_of_getElem? first)
  exact normalizes_toOption (keeps x operand) result

theorem isNormal_perform₂ (normal : ∀ d ∈ results, d.IsNormal)
    {f : Decimal → Decimal → Except ArithmeticFault Decimal}
    (keeps : ∀ x y, x.IsNormal → y.IsNormal → Normalizes (f x y)) {a b : Nat} {d : Decimal}
    (done : perform₂ results f a b = some d) : d.IsNormal := by
  obtain ⟨x, first, done⟩ := Option.bind_eq_some_iff.mp done
  obtain ⟨y, second, result⟩ := Option.bind_eq_some_iff.mp done
  have left := normal x (List.mem_of_getElem? first)
  have right := normal y (List.mem_of_getElem? second)
  exact normalizes_toOption (keeps x y left right) result

theorem isNormal_perform (normal : ∀ d ∈ results, d.IsNormal) {op : Operation} {d : Decimal}
    (done : perform results op = some d) : d.IsNormal := by
  cases op with
  | ofText text => exact isNormal_ofText? done
  | ofInt n =>
    cases done
    exact isNormal_ofInt n
  | checked unscaled scale => exact normalizes_toOption (normalizes_checked _ _) done
  | add a b => exact isNormal_perform₂ normal (fun x y hx hy => normalizes_ok (isNormal_add hx hy)) done
  | sub a b => exact isNormal_perform₂ normal (fun x y hx hy => normalizes_ok (isNormal_sub hx hy)) done
  | neg a => exact isNormal_perform₁ normal (fun x hx => normalizes_ok (isNormal_neg hx)) done
  | abs a => exact isNormal_perform₁ normal (fun x hx => normalizes_ok (isNormal_abs hx)) done
  | checkedMul a b => exact isNormal_perform₂ normal (fun x y _ _ => normalizes_checkedMul x y) done
  | div a b math => exact isNormal_perform₂ normal (fun x y _ _ => normalizes_div x y math) done
  | divFloor a b => exact isNormal_perform₂ normal (fun x y _ _ => normalizes_divFloor x y) done
  | divTrunc a b => exact isNormal_perform₂ normal (fun x y _ _ => normalizes_divTrunc x y) done
  | rem a b => exact isNormal_perform₂ normal (fun x y hx hy => normalizes_rem hx hy) done
  | pow a exponent math => exact isNormal_perform₂ normal (fun x y _ _ => normalizes_pow x y math) done
  | round a math => exact isNormal_perform₁ normal (fun x _ => normalizes_round x math) done
  | roundToScale a places mode =>
    exact isNormal_perform₁ normal (fun x hx => normalizes_roundToScale hx places mode) done

theorem isNormal_performAll (ops : List Operation) (normal : ∀ d ∈ results, d.IsNormal) :
    ∀ d ∈ performAll results ops, d.IsNormal := by
  induction ops generalizing results with
  | nil => exact normal
  | cons op rest ih =>
    apply ih
    intro d mem
    rcases List.mem_append.mp mem with old | new
    · exact normal d old
    · exact isNormal_perform normal (Option.mem_toList.mp new)

end Sequences

/-- Whatever operations are performed, their results are normal. So two results, of the same operations or of
others, are the same decimal exactly if they denote the same number. -/
theorem results_normal (ops : List Operation) :
    (∀ d ∈ performAll [] ops, d.IsNormal) ∧
      ∀ others, ∀ d ∈ performAll [] ops, ∀ e ∈ performAll [] others, d = e ↔ d.toRat = e.toRat := by
  have normal (ops : List Operation) : ∀ d ∈ performAll [] ops, d.IsNormal :=
    isNormal_performAll ops fun d none => absurd none List.not_mem_nil
  refine ⟨normal ops, fun others d mem e mem' => ?_⟩
  constructor
  · rintro rfl
    rfl
  · exact toRat_injective (normal ops d mem) (normal others e mem')

/-- At the least scale an unscaled part may end in zeros, and still tells the number. -/
theorem results_normal_minScale :
    ⟨100, minScale⟩ ∈ performAll [] [.checked 1 minScale, .checked (-99) minScale, .sub 0 1] ∧
      ⟨1, minScale⟩ ∈ performAll [] [.checked 1 minScale] ∧
      IsNormal ⟨100, minScale⟩ ∧ toRat ⟨100, minScale⟩ ≠ toRat ⟨1, minScale⟩ := by
  have difference : ⟨100, minScale⟩ ∈
      performAll [] [.checked 1 minScale, .checked (-99) minScale, .sub 0 1] := by decide +kernel
  have unit : ⟨1, minScale⟩ ∈ performAll [] [.checked 1 minScale] := by decide +kernel
  obtain ⟨normal, same_iff⟩ := results_normal [.checked 1 minScale, .checked (-99) minScale, .sub 0 1]
  refine ⟨difference, unit, normal _ difference, fun same => ?_⟩
  have equal := (same_iff _ _ difference _ unit).mpr same
  cases equal

end TemplateExpr.Decimal
