import TemplateExpr.Proofs.Evaluation.Native
import TemplateExpr.Proofs.Evaluation.Reach
/-!
What scripts are made of. The scripts of one expression among different functions go in lockstep: they ask for
the same parts, check for cancellation at the same moments, and end in the same way, or in calls of the same
name on the same arguments. What an expression may do there is read off its form.
-/
namespace TemplateExpr

variable {σ α : Type}

/-- Segments behind so many values, with every look-back to one of the values before it. -/
def InRange : Nat → List (Segment Expr) → Prop
  | _, [] => True
  | values, .text _ :: rest => InRange values rest
  | values, .value _ :: rest => InRange (values + 1) rest
  | values, .lookBack distance _ :: rest => 1 ≤ distance ∧ distance ≤ values ∧ InRange values rest

theorem lookBack?_inRange {produced : List String} {distance : Nat} (least : 1 ≤ distance)
    (most : distance ≤ produced.length) : ∃ s, lookBack? produced distance = some s := by
  have inside : distance - 1 < produced.length := by omega
  refine ⟨produced[distance - 1], ?_⟩
  rw [lookBack?, if_neg (by omega), List.getElem?_eq_getElem inside]

namespace Expr

theorem single_or_several (segments : List (Segment Expr)) (typed : Bool) :
    (∃ e, segments = [.value e] ∧ typed = true) ∨ ∀ e, segments = [.value e] → typed = true → False := by
  by_cases single : ∃ e, segments = [.value e] ∧ typed = true
  · exact .inl single
  · exact .inr fun e segment alone => single ⟨e, segment, alone⟩

/-- Expressions that check for cancellation before or between their parts. -/
inductive Guarded : Expr → Prop where
  | operator {op : BinaryOp} (notAnd : op ≠ .and) (notOr : op ≠ .or) (left right : Expr) :
      Guarded (binary op left right)
  | call (name : String) (position : Nat) (arguments : List Expr) : Guarded (call name position arguments)
  | template {segments : List (Segment Expr)} {typed : Bool}
      (several : ∀ e, segments = [.value e] → typed = true → False) : Guarded (template segments typed)

inductive Raises : Expr → Error → Prop where
  | native (e : Expr) {fault : Error} (native : fault.Native) : Raises e fault
  | lookBack {segments : List (Segment Expr)} (outside : ¬ InRange 0 segments) (typed : Bool) (position : Nat) :
      Raises (template segments typed) (.malformed position .lookBackOutOfRange)

inductive Ranged : Expr → Prop where
  | intro {e : Expr} (here : ∀ segments typed, e = template segments typed → InRange 0 segments)
      (parts : ∀ i part, e.part? i = some part → Ranged part) : Ranged e

theorem native_of_raises {e : Expr} {fault : Error} (ranged : Ranged e) (raises : Raises e fault) :
    fault.Native := by
  cases raises with
  | native e native => exact native
  | lookBack outside typed position =>
    cases ranged with
    | intro here parts => exact (outside (here _ _ rfl)).elim

end Expr

namespace Script

open TemplateExpr.Expr

/-- Scripts of `e` in lockstep, among the functions of `on` and those of `others`; `checked` tells whether they
have checked for cancellation. -/
inductive Lockstep (on : Surroundings σ) (others : Registry σ) (e : Expr) :
    Bool → Script σ → Script σ → Prop where
  | finish {checked : Bool} (result : Except Error Value)
      (fails : ∀ fault, result = .error fault → Raises e fault) :
      Lockstep on others e checked (.finish (Run.lift result)) (.finish (Run.lift result))
  | invoke {name : String} {position : Nat} {arguments : List Expr} (isCall : e = .call name position arguments)
      (values : List Value) :
      Lockstep on others e true (.finish (on.registry.invoke name values)) (.finish (others.invoke name values))
  | checkpoint {checked : Bool} {next next' : Script σ} (guarded : Guarded e)
      (rest : Lockstep on others e true next next') :
      Lockstep on others e checked (.act Run.checkpoint next) (.act Run.checkpoint next')
  | ask {checked : Bool} (i : Nat) {next next' : Value → Script σ}
      (rest : ∀ v, Lockstep on others e checked (next v) (next' v)) :
      Lockstep on others e checked (.ask i next) (.ask i next')

variable {on : Surroundings σ} {others : Registry σ} {e : Expr} {checked : Bool}

theorem Lockstep.value (v : Value) :
    Lockstep on others e checked (.finish (return v)) (.finish (return v)) := by
  refine .finish (.ok v) ?_
  intro fault fails
  cases fails

theorem Lockstep.fail {fault : Error} (raises : Raises e fault) :
    Lockstep on others e checked (.finish (throw fault)) (.finish (throw fault)) := by
  refine .finish (.error fault) ?_
  intro fault' fails
  cases fails
  exact raises

theorem Lockstep.native {result : Except Error Value} (fails : FailsNatively result) :
    Lockstep on others e checked (.finish (Run.lift result)) (.finish (Run.lift result)) :=
  .finish result fun fault h => .native e (fails fault h)

theorem Lockstep.ofExcept {result : Except Error α} {next next' : α → Script σ} (fails : FailsNatively result)
    (rest : ∀ a, Lockstep on others e checked (next a) (next' a)) :
    Lockstep on others e checked (ofExcept result next) (ofExcept result next') := by
  cases result with
  | ok a => exact rest a
  | error fault => exact .fail (.native e (fails fault rfl))

end Script

namespace Expr

open Script

variable {on : Surroundings σ} {others : Registry σ} {e : Expr} {checked : Bool}

theorem lockstep_segmentScript {produced : List String} {i : Nat} {segments : List (Segment Expr)}
    {next next' : List String → Script σ} (guarded : Guarded e)
    (fits : InRange produced.length segments ∨ ∀ position, Raises e (.malformed position .lookBackOutOfRange))
    (rest : ∀ checked parts, Lockstep on others e checked (next parts) (next' parts)) :
    Lockstep on others e checked (segmentScript produced i segments next)
      (segmentScript produced i segments next') := by
  induction segments generalizing produced i next next' checked with
  | nil => exact rest checked []
  | cons segment segments ih =>
    cases segment with
    | text s =>
      simp only [segmentScript]
      exact ih fits fun checked parts => rest checked _
    | value part =>
      simp only [segmentScript]
      refine .checkpoint guarded (.ask i fun v => ih ?_ fun checked parts => rest checked _)
      exact fits
    | lookBack distance position =>
      simp only [segmentScript]
      cases found : lookBack? produced distance with
      | some s =>
        refine ih ?_ fun checked parts => rest checked _
        exact fits.imp_left fun fits => fits.2.2
      | none =>
        refine .fail ?_
        rcases fits with ⟨least, most, _⟩ | raises
        · obtain ⟨s, there⟩ := lookBack?_inRange least most
          cases found.symm.trans there
        · exact raises position

theorem lockstep_argumentScript {i : Nat} {arguments : List Expr} {next next' : List Value → Script σ}
    (rest : ∀ values, Lockstep on others e checked (next values) (next' values)) :
    Lockstep on others e checked (argumentScript i arguments next) (argumentScript i arguments next') := by
  induction arguments generalizing i next next' with
  | nil => exact rest []
  | cons part arguments ih => exact .ask i fun v => ih fun values => rest _

theorem lockstep_startScript {text : String} {position : Nat} {next next' : Nat → Script σ}
    (rest : ∀ start, Lockstep on others e checked (next start) (next' start)) :
    Lockstep on others e checked (startScript text position next) (startScript text position next') := by
  refine .ask 0 fun v => ?_
  refine .ofExcept (failsNatively_boundIndex v position) fun start => ?_
  exact .ofExcept (failsNatively_withinLength _ _ _) fun _ => rest start

theorem lockstep_sliceScript {text : String} {slice : Option (Slice Expr)} {next next' : String → Script σ}
    (rest : ∀ kept, Lockstep on others e checked (next kept) (next' kept)) :
    Lockstep on others e checked (sliceScript text slice next) (sliceScript text slice next') := by
  match slice with
  | none => exact rest text
  | some ⟨_, none⟩ => exact lockstep_startScript fun start => rest _
  | some ⟨_, some _⟩ =>
    refine lockstep_startScript fun start => .ask 1 fun v => ?_
    refine .ofExcept (failsNatively_boundIndex v _) fun count => ?_
    exact .ofExcept (failsNatively_withinLength _ _ _) fun _ => rest _

theorem lockstep_truthScript {i : Nat} {next next' : Bool → Script σ}
    (rest : ∀ b, Lockstep on others e checked (next b) (next' b)) :
    Lockstep on others e checked (truthScript i next) (truthScript i next') :=
  .ask i fun v => .ofExcept (failsNatively_asLogic v) rest

theorem lockstep_binary (op : BinaryOp) (left right : Expr) :
    Lockstep on others (binary op left right) false (script on (binary op left right))
      (script { on with registry := others } (binary op left right)) := by
  cases op with
  | and =>
    refine lockstep_truthScript fun b => ?_
    cases b
    · exact .value _
    · exact lockstep_truthScript fun c => .value _
  | or =>
    refine lockstep_truthScript fun b => ?_
    cases b
    · exact lockstep_truthScript fun c => .value _
    · exact .value _
  | _ =>
    refine .checkpoint (.operator (by decide) (by decide) left right) ?_
    exact .ask 0 fun l => .ask 1 fun r => .native (BinaryOp.failsNatively_apply l r on.math _)

theorem lockstep_script (on : Surroundings σ) (others : Registry σ) (e : Expr) :
    Lockstep on others e false (script on e) (script { on with registry := others } e) := by
  cases e with
  | constant v => exact .value v
  | template segments typed =>
    rcases single_or_several segments typed with ⟨e, rfl, rfl⟩ | several
    · exact .ask 0 fun v => .value v
    · have fits : InRange 0 segments ∨
          ∀ position, Raises (template segments typed) (.malformed position .lookBackOutOfRange) := by
        by_cases inside : InRange 0 segments
        · exact .inl inside
        · exact .inr (Raises.lookBack inside typed)
      rw [script.eq_3 _ _ _ several, script.eq_3 _ _ _ several]
      exact lockstep_segmentScript (.template several) fits fun checked parts => .value _
  | reference r =>
    rw [script, script]
    cases on.symbols.read? r.name with
    | none =>
      cases r.fallback with
      | none => exact .fail (.native _ (.unknownSymbol _))
      | some e => exact .ask 2 fun v => .value v
    | some raw => exact lockstep_sliceScript fun text => .value _
  | defined name => exact .value _
  | conditional condition yes no => exact lockstep_truthScript fun b => .ask _ fun v => .value v
  | binary op left right => exact lockstep_binary op left right
  | unary op operand => exact .ask 0 fun v => .native (UnaryOp.failsNatively_apply v op)
  | convert kind operand => exact .ask 0 fun v => .native (failsNatively_convert v kind)
  | call name position arguments =>
    refine .checkpoint (.call name position arguments) ?_
    exact lockstep_argumentScript fun values => .invoke rfl values

end Expr

end TemplateExpr
