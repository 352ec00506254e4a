import TemplateExpr.Proofs.Evaluation.Script
/-!
What an evaluation gets to. The value of an expression is what its script makes of the values of its parts, so
an evaluation gets to a subexpression if each script on the way to it asks for the next part of that way.
`assemble` puts executors in the place of subexpressions.
-/
namespace TemplateExpr.Expr

variable {σ : Type}

def segmentPart? : Segment Expr → Option Expr
  | .value e => some e
  | _ => none

def referencePart? (r : Reference Expr) : Nat → Option Expr
  | 0 => r.slice.map fun slice => slice.start.part
  | 1 => (r.slice.bind Slice.count).map Bound.part
  | 2 => r.fallback
  | _ => none

/-- The part with an index, which is the place of a segment or an argument in its list, or else the place
among the operands. The bounds of a slice have the indices 0 and 1, a fallback has the index 2. -/
def part? : Expr → Nat → Option Expr
  | constant _, _ => none
  | template segments _, i => segments[i]?.bind segmentPart?
  | reference r, i => referencePart? r i
  | defined _, _ => none
  | conditional condition yes no, i => [condition, yes, no][i]?
  | binary _ left right, i => [left, right][i]?
  | unary _ operand, i => [operand][i]?
  | convert _ operand, i => [operand][i]?
  | call _ _ arguments, i => arguments[i]?

theorem sizeOf_part? {e part : Expr} {i : Nat} (h : e.part? i = some part) : sizeOf part < sizeOf e := by
  cases e with
  | constant v => cases h
  | defined name => cases h
  | template segments typed =>
    obtain ⟨segment, found, holds⟩ := Option.bind_eq_some_iff.mp h
    have inside := List.sizeOf_lt_of_mem (List.mem_of_getElem? found)
    cases segment with
    | value e =>
      cases holds
      simp only [template.sizeOf_spec, Segment.value.sizeOf_spec] at inside ⊢
      omega
    | text s => cases holds
    | lookBack distance position => cases holds
  | reference r =>
    obtain ⟨name, slice, transforms, length, fallback⟩ := r
    simp only [reference.sizeOf_spec, Reference.mk.sizeOf_spec]
    match i with
    | 0 =>
      obtain ⟨⟨⟨start, position⟩, count⟩, rfl, rfl⟩ := Option.map_eq_some_iff.mp h
      simp only [Option.some.sizeOf_spec, Slice.mk.sizeOf_spec, Bound.mk.sizeOf_spec]
      omega
    | 1 =>
      obtain ⟨⟨part, position⟩, found, rfl⟩ := Option.map_eq_some_iff.mp h
      obtain ⟨⟨start, count⟩, rfl, rfl⟩ := Option.bind_eq_some_iff.mp found
      simp only [Option.some.sizeOf_spec, Slice.mk.sizeOf_spec, Bound.mk.sizeOf_spec]
      omega
    | 2 =>
      cases h
      simp only [Option.some.sizeOf_spec]
      omega
    | i + 3 => cases h
  | conditional condition yes no =>
    have inside := List.mem_of_getElem? h
    simp only [List.mem_cons, List.not_mem_nil, or_false] at inside
    simp only [conditional.sizeOf_spec]
    rcases inside with rfl | rfl | rfl <;> omega
  | binary op left right =>
    have inside := List.mem_of_getElem? h
    simp only [List.mem_cons, List.not_mem_nil, or_false] at inside
    simp only [binary.sizeOf_spec]
    rcases inside with rfl | rfl <;> omega
  | unary op operand =>
    cases List.mem_singleton.mp (List.mem_of_getElem? h)
    simp only [unary.sizeOf_spec]
    omega
  | convert kind operand =>
    cases List.mem_singleton.mp (List.mem_of_getElem? h)
    simp only [convert.sizeOf_spec]
    omega
  | call name position arguments =>
    have inside := List.sizeOf_lt_of_mem (List.mem_of_getElem? h)
    simp only [call.sizeOf_spec]
    omega

theorem part_induction {P : Expr → Prop} (step : ∀ e, (∀ i part, e.part? i = some part → P part) → P e)
    (e : Expr) : P e :=
  step e fun _ part _ => part_induction step part
termination_by sizeOf e
decreasing_by exact sizeOf_part? (by assumption)

open Script

/-- Asks for the values of segments from the index `i` on, after value segments with the texts `produced`. -/
def segmentScript (produced : List String) (i : Nat) :
    List (Segment Expr) → (List String → Script σ) → Script σ
  | [], next => next []
  | .text s :: rest, next => segmentScript produced (i + 1) rest fun parts => next (s :: parts)
  | .value _ :: rest, next =>
    act Run.checkpoint <| ask i fun v =>
      segmentScript (v.asText :: produced) (i + 1) rest fun parts => next (v.asText :: parts)
  | .lookBack distance position :: rest, next =>
    match lookBack? produced distance with
    | some s => segmentScript produced (i + 1) rest fun parts => next (s :: parts)
    | none => finish (throw (.malformed position .lookBackOutOfRange))

def argumentScript (i : Nat) : List Expr → (List Value → Script σ) → Script σ
  | [], next => next []
  | _ :: rest, next => ask i fun v => argumentScript (i + 1) rest fun values => next (v :: values)

def startScript (text : String) (position : Nat) (next : Nat → Script σ) : Script σ :=
  ask 0 fun v =>
    ofExcept (boundIndex position v) fun start =>
      ofExcept (withinLength position start text.length) fun _ => next start

def sliceScript (text : String) (slice : Option (Slice Expr)) (next : String → Script σ) : Script σ :=
  match slice with
  | none => next text
  | some ⟨⟨_, startPosition⟩, none⟩ =>
    startScript text startPosition fun start => next (String.ofList (text.toList.drop start))
  | some ⟨⟨_, startPosition⟩, some ⟨_, countPosition⟩⟩ =>
    startScript text startPosition fun start =>
      ask 1 fun v =>
        ofExcept (boundIndex countPosition v) fun count =>
          ofExcept (withinLength countPosition count (text.length - start)) fun _ =>
            next (String.ofList ((text.toList.drop start).take count))

def passOn (i : Nat) : Script σ := ask i fun v => finish (return v)

def truthScript (i : Nat) (next : Bool → Script σ) : Script σ := ask i fun v => ofExcept v.asLogic next

def script (on : Surroundings σ) : Expr → Script σ
  | constant v => finish (return v)
  | template [.value _] true => passOn 0
  | template segments _ => segmentScript [] 0 segments fun parts => finish (return .text (String.join parts))
  | reference r =>
    match on.symbols.read? r.name with
    | none =>
      match r.fallback with
      | none => finish (throw (.unknownSymbol r.name))
      | some _ => passOn 2
    | some raw =>
      sliceScript raw r.slice fun text =>
        let text := r.transforms.foldl (fun text transform => transform.apply text) text
        finish (return if r.length then .ofInt text.length else .text text)
  | defined name => finish (return .logic (on.symbols.read? name).isSome)
  | conditional _ _ _ => truthScript 0 fun b => passOn (if b then 1 else 2)
  | binary .and _ _ =>
    truthScript 0 fun b =>
      if b then truthScript 1 fun c => finish (return .logic c) else finish (return .logic false)
  | binary .or _ _ =>
    truthScript 0 fun b =>
      if b then finish (return .logic true) else truthScript 1 fun c => finish (return .logic c)
  | binary op _ _ =>
    act Run.checkpoint <| ask 0 fun l => ask 1 fun r => finish (Run.lift (op.apply on.math l r))
  | unary op _ => ask 0 fun v => finish (Run.lift (op.apply v))
  | convert kind _ => ask 0 fun v => finish (Run.lift (v.convert kind))
  | call name _ arguments =>
    act Run.checkpoint <| argumentScript 0 arguments fun values =>
      finish (on.registry.invoke name values)

/-- What stands where there is no part; no script asks for it. -/
def absent : Executor σ := Run.lift (.error .interrupted)

def parts (on : Surroundings σ) (e : Expr) (i : Nat) : Executor σ := (e.part? i).elim absent (eval on)

variable {on : Surroundings σ} {xs : Nat → Executor σ}

theorem play_segmentScript {produced : List String} {i : Nat} {segments : List (Segment Expr)}
    {next : List String → Script σ}
    (values : ∀ k e, segments[k]? = some (.value e) → xs (i + k) = eval on e) :
    (segmentScript produced i segments next).play xs = (do
      let parts ← evalSegments on produced segments
      (next parts).play xs) := by
  induction segments generalizing produced i next with
  | nil =>
    rw [segmentScript, evalSegments, pure_bind]
  | cons segment rest ih =>
    have later : ∀ k e, rest[k]? = some (.value e) → xs (i + 1 + k) = eval on e := by
      intro k e found
      rw [Nat.add_assoc, Nat.add_comm 1 k]
      exact values (k + 1) e found
    cases segment with
    | text s =>
      rw [segmentScript, evalSegments, ih later]
      simp only [bind_assoc, pure_bind]
    | value e =>
      have here : xs i = eval on e := values 0 e rfl
      rw [segmentScript, evalSegments]
      simp only [play, here, ih later, bind_assoc, pure_bind]
    | lookBack distance position =>
      rw [segmentScript, evalSegments]
      cases lookBack? produced distance with
      | some s =>
        simp only [ih later, bind_assoc, pure_bind]
      | none => rfl

theorem play_argumentScript {i : Nat} {arguments : List Expr} {next : List Value → Script σ}
    (values : ∀ k e, arguments[k]? = some e → xs (i + k) = eval on e) :
    (argumentScript i arguments next).play xs = (do
      let vs ← evalAll on arguments
      (next vs).play xs) := by
  induction arguments generalizing i next with
  | nil =>
    rw [argumentScript, evalAll, pure_bind]
  | cons e rest ih =>
    have later : ∀ k e, rest[k]? = some e → xs (i + 1 + k) = eval on e := by
      intro k e found
      rw [Nat.add_assoc, Nat.add_comm 1 k]
      exact values (k + 1) e found
    have here : xs i = eval on e := values 0 e rfl
    rw [argumentScript, evalAll]
    simp only [play, here, ih later, bind_assoc, pure_bind]

theorem play_sliceScript {text : String} {slice : Option (Slice Expr)} {next : String → Script σ}
    (start : ∀ b, slice.map Slice.start = some b → xs 0 = eval on b.part)
    (count : ∀ b, slice.bind Slice.count = some b → xs 1 = eval on b.part) :
    (sliceScript text slice next).play xs = (do
      let kept ← evalSlice on text slice
      (next kept).play xs) := by
  match slice with
  | none =>
    rw [sliceScript, evalSlice, pure_bind]
  | some ⟨⟨first, firstPosition⟩, none⟩ =>
    rw [sliceScript, evalSlice]
    simp only [startScript, play, play_ofExcept, start _ rfl, bind_assoc, pure_bind]
  | some ⟨⟨first, firstPosition⟩, some ⟨second, secondPosition⟩⟩ =>
    rw [sliceScript, evalSlice]
    simp only [startScript, play, play_ofExcept, start _ rfl, count _ rfl, bind_assoc, pure_bind]

theorem play_passOn (i : Nat) : (passOn i).play xs = xs i := @bind_pure (Eval σ) Value _ _ (xs i)

theorem play_truthScript (i : Nat) (next : Bool → Script σ) :
    (truthScript i next).play xs = (do
      let b ← Run.lift (← xs i).asLogic
      (next b).play xs) := by
  simp only [truthScript, play, play_ofExcept]

theorem parts_eq {e part : Expr} {i : Nat} (h : e.part? i = some part) :
    parts on e i = eval on part := by
  rw [parts, h]
  rfl

theorem eval_template (segments : List (Segment Expr)) (typed : Bool) :
    eval on (template segments typed) =
      (script on (template segments typed)).play (parts on (template segments typed)) := by
  by_cases single : ∃ e, segments = [.value e] ∧ typed = true
  · obtain ⟨e, rfl, rfl⟩ := single
    rw [eval, script, play_passOn]
    rfl
  · have several : ∀ e, segments = [.value e] → typed = true → False :=
      fun e segment alone => single ⟨e, segment, alone⟩
    have values : ∀ k e, segments[k]? = some (.value e) →
        parts on (template segments typed) (0 + k) = eval on e := by
      intro k e found
      rw [Nat.zero_add]
      refine parts_eq ?_
      rw [part?, found]
      rfl
    rw [eval, script, play_segmentScript values]
    · rfl
    · exact several
    · exact several

theorem eval_reference (r : Reference Expr) :
    eval on (reference r) = (script on (reference r)).play (parts on (reference r)) := by
  obtain ⟨name, slice, transforms, length, fallback⟩ := r
  rw [eval, script]
  dsimp only
  cases on.symbols.read? name with
  | none =>
    cases fallback with
    | none => exact evalFallback.eq_1 on name
    | some e =>
      rw [evalFallback]
      dsimp only
      rw [play_passOn]
      rfl
  | some raw =>
    have start : ∀ b, slice.map Slice.start = some b →
        parts on (reference ⟨name, slice, transforms, length, fallback⟩) 0 = eval on b.part := by
      intro b h
      obtain ⟨s, rfl, rfl⟩ := Option.map_eq_some_iff.mp h
      rfl
    have count : ∀ b, slice.bind Slice.count = some b →
        parts on (reference ⟨name, slice, transforms, length, fallback⟩) 1 = eval on b.part := by
      intro b h
      refine parts_eq ?_
      rw [part?, referencePart?, h]
      rfl
    dsimp only
    rw [play_sliceScript start count]
    rfl

/-- Evaluation is the script of an expression on the evaluations of its parts. -/
theorem eval_eq_play (e : Expr) : eval on e = (script on e).play (parts on e) := by
  cases e with
  | constant v => rw [eval]; rfl
  | template segments typed => exact eval_template segments typed
  | reference r => exact eval_reference r
  | defined name => rw [eval]; rfl
  | conditional condition yes no =>
    have branch : ∀ b : Bool, parts on (conditional condition yes no) (if b then 1 else 2) =
        if b then eval on yes else eval on no := by
      intro b
      cases b <;> rfl
    rw [eval, script, play_truthScript]
    simp only [play_passOn, branch]
    rfl
  | binary op left right =>
    cases op with
    | and =>
      have branch : ∀ b : Bool, (if b then truthScript 1 fun c => finish (return .logic c)
          else finish (return .logic false) : Script σ).play (parts on (binary .and left right)) =
            if b then (do return .logic (← Run.lift (← eval on right).asLogic)) else return .logic false := by
        intro b
        cases b
        · rfl
        · exact play_truthScript 1 _
      rw [eval, script, play_truthScript]
      simp only [branch]
      rfl
    | or =>
      have branch : ∀ b : Bool, (if b then finish (return .logic true)
          else truthScript 1 fun c => finish (return .logic c) : Script σ).play
            (parts on (binary .or left right)) =
              if b then return .logic true else (do return .logic (← Run.lift (← eval on right).asLogic)) := by
        intro b
        cases b
        · exact play_truthScript 1 _
        · rfl
      rw [eval, script, play_truthScript]
      simp only [branch]
      rfl
    | _ => rw [eval] <;> first | rfl | simp
  | unary op operand => rw [eval]; rfl
  | convert kind operand => rw [eval]; rfl
  | call name position arguments =>
    have values : ∀ k e, arguments[k]? = some e →
        parts on (call name position arguments) (0 + k) = eval on e := by
      intro k e found
      rw [Nat.zero_add]
      exact parts_eq found
    rw [eval, script]
    simp only [play, play_argumentScript values]

theorem ascends_segmentScript {i : Nat} {produced : List String} {segments : List (Segment Expr)}
    {next : List String → Script σ} (ascends : ∀ j parts, (next parts).Ascends j) :
    (segmentScript produced i segments next).Ascends i := by
  induction segments generalizing produced i next with
  | nil => exact ascends i []
  | cons segment rest ih =>
    cases segment with
    | text s => exact ascends_mono (Nat.le_succ i) (ih fun j parts => ascends j _)
    | value e => exact ⟨Nat.le_refl i, fun v => ih fun j parts => ascends j _⟩
    | lookBack distance position =>
      rw [segmentScript]
      split
      · exact ascends_mono (Nat.le_succ i) (ih fun j parts => ascends j _)
      · trivial

theorem ascends_argumentScript {i : Nat} {arguments : List Expr} {next : List Value → Script σ}
    (ascends : ∀ j values, (next values).Ascends j) : (argumentScript i arguments next).Ascends i := by
  induction arguments generalizing i next with
  | nil => exact ascends i []
  | cons e rest ih => exact ⟨Nat.le_refl i, fun v => ih fun j values => ascends j _⟩

theorem ascends_sliceScript {text : String} {slice : Option (Slice Expr)} {next : String → Script σ}
    (ascends : ∀ j kept, (next kept).Ascends j) : (sliceScript text slice next).Ascends 0 := by
  match slice with
  | none => exact ascends 0 text
  | some ⟨_, none⟩ =>
    exact ⟨Nat.le_refl 0, fun v => ascends_ofExcept fun start => ascends_ofExcept fun _ => ascends 1 _⟩
  | some ⟨_, some _⟩ =>
    exact ⟨Nat.le_refl 0, fun v => ascends_ofExcept fun start => ascends_ofExcept fun _ =>
      ⟨Nat.le_refl 1, fun w => ascends_ofExcept fun count => ascends_ofExcept fun _ => ascends 2 _⟩⟩

theorem ascends_passOn (i : Nat) : (passOn i : Script σ).Ascends i := ⟨Nat.le_refl i, fun _ => trivial⟩

theorem ascends_truthScript {i : Nat} {next : Bool → Script σ} (ascends : ∀ b, (next b).Ascends (i + 1)) :
    (truthScript i next).Ascends i :=
  ⟨Nat.le_refl i, fun _ => ascends_ofExcept ascends⟩

theorem ascends_binary (op : BinaryOp) (left right : Expr) :
    (script on (binary op left right)).Ascends 0 := by
  cases op with
  | and =>
    refine ascends_truthScript fun b => ?_
    cases b
    · trivial
    · exact ascends_truthScript fun c => trivial
  | or =>
    refine ascends_truthScript fun b => ?_
    cases b
    · exact ascends_truthScript fun c => trivial
    · trivial
  | _ => exact ⟨Nat.le_refl 0, fun l => ⟨Nat.le_refl 1, fun r => trivial⟩⟩

theorem ascends_script (e : Expr) : (script on e).Ascends 0 := by
  cases e with
  | constant v => trivial
  | template segments typed =>
    by_cases single : ∃ e, segments = [.value e] ∧ typed = true
    · obtain ⟨e, rfl, rfl⟩ := single
      exact ascends_passOn 0
    · rw [script]
      · exact ascends_segmentScript fun j parts => trivial
      · exact fun e segment alone => single ⟨e, segment, alone⟩
  | reference r =>
    rw [script]
    cases on.symbols.read? r.name with
    | none =>
      cases r.fallback with
      | none => trivial
      | some e => exact ascends_mono (Nat.zero_le 2) (ascends_passOn 2)
    | some raw => exact ascends_sliceScript fun j kept => trivial
  | defined name => trivial
  | conditional condition yes no =>
    refine ascends_truthScript fun b => ?_
    cases b
    · exact ascends_mono (Nat.le_succ 1) (ascends_passOn 2)
    · exact ascends_passOn 1
  | binary op left right => exact ascends_binary op left right
  | unary op operand => exact ⟨Nat.le_refl 0, fun v => trivial⟩
  | convert kind operand => exact ⟨Nat.le_refl 0, fun v => trivial⟩
  | call name position arguments => exact ascends_argumentScript fun j values => trivial

/-- The parts that the evaluation of an expression asks for, each with the run at that moment. -/
def visits (on : Surroundings σ) (e : Expr) : Run σ → List (Nat × Run σ) :=
  (script on e).visits (parts on e)

/-- Where a subexpression stands: the indices of parts, from the whole expression on. -/
abbrev Path : Type := List Nat

/-- Evaluation from `run` gets to the subexpression at a path, with the second run. -/
inductive Reaches (on : Surroundings σ) : Expr → Run σ → Path → Run σ → Prop where
  | here (e : Expr) (run : Run σ) : Reaches on e run [] run
  | within {e part : Expr} {run r r' : Run σ} {i : Nat} {path : Path} (visited : (i, r) ∈ visits on e run)
      (found : e.part? i = some part) (rest : Reaches on part r path r') :
      Reaches on e run (i :: path) r'

abbrev Substitution (σ : Type) : Type := Path → Option (Executor σ)

def Substitution.below (sub : Substitution σ) (i : Nat) : Substitution σ := fun path => sub (i :: path)

/-- The executor of an expression with other executors in the place of some subexpressions. -/
def assemble (on : Surroundings σ) (sub : Substitution σ) (e : Expr) : Eval σ Value :=
  (sub []).getD <| (script on e).play fun i =>
    match _ : e.part? i with
    | some part => assemble on (sub.below i) part
    | none => absent
termination_by sizeOf e
decreasing_by exact sizeOf_part? (by assumption)

end TemplateExpr.Expr
