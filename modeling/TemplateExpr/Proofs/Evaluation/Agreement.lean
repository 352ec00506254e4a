import TemplateExpr.Proofs.Evaluation.Templates
/-!
Parser and evaluator agree on templates. Whatever a session compiles is evaluated without a look-back that leads
nowhere, and each template in it is rendered from its own values.
-/
namespace TemplateExpr

variable {σ : Type}

namespace Expr

variable {on : Surroundings σ}

/-- What the evaluation of a template comes to in a run, and what the loop over its segments comes to. -/
structure Renders (on : Surroundings σ) (segments : List (Segment Expr)) (typed : Bool) (run : Run σ) :
    Prop where
  single : ∀ e, segments = [.value e] → typed = true → eval on (template segments typed) = eval on e
  several : (∀ e, segments = [.value e] → typed = true → False) →
    Assembled segments (evalValues on segments run) (eval on (template segments typed) run)
  /-- The value segments are asked for from the left, none of them twice. -/
  ordered : (visits on (template segments typed) run).map Prod.fst <+: places 0 segments
  complete : ∀ v r, eval on (template segments typed) run = .ok v r →
    (visits on (template segments typed) run).map Prod.fst = places 0 segments
  /-- What is pooled for a plain text is what the loop yields. -/
  plain : ∀ text, Parser.plainText? segments = some text → general on segments = eval on (constant (.text text))
  loop : run.cancelled = false → (general on segments).outcome run =
    ((eval on (template segments typed)).outcome run).map fun v => .text v.asText

theorem evalSegments_plain (on : Surroundings σ) {segments : List (Segment Expr)} {text : String}
    (plain : Parser.plainText? segments = some text) (produced : List String) :
    ∃ texts, evalSegments on produced segments = pure texts ∧ String.join texts = text := by
  induction segments generalizing text with
  | nil =>
    cases plain
    exact ⟨[], by rw [evalSegments], rfl⟩
  | cons segment rest ih =>
    cases segment with
    | text s =>
      obtain ⟨t, later, rfl⟩ := Option.map_eq_some_iff.mp plain
      obtain ⟨texts, read, joined⟩ := ih later
      refine ⟨s :: texts, ?_, ?_⟩
      · rw [evalSegments, read, pure_bind]
      · rw [String.join_cons, joined]
    | value e => cases plain
    | lookBack distance position => cases plain

theorem general_plain {segments : List (Segment Expr)} {text : String}
    (plain : Parser.plainText? segments = some text) :
    general on segments = eval on (constant (.text text)) := by
  obtain ⟨texts, read, joined⟩ := evalSegments_plain on plain []
  rw [general, read, pure_bind, joined, eval]

theorem outcome_general (segments : List (Segment Expr)) (run : Run σ) :
    (general on segments).outcome run = ((general on segments).outcome run).map fun v => .text v.asText := by
  rw [general, Eval.outcome_map]
  cases (evalSegments on [] segments).outcome run <;> rfl

theorem outcome_general_single {e : Expr} {run : Run σ} (uncancelled : run.cancelled = false) :
    (general on [.value e]).outcome run = ((eval on e).outcome run).map fun v => .text v.asText := by
  have loop : general on [.value e] = (do
      Run.checkpoint
      let v ← eval on e
      return .text v.asText) := by
    simp [general, evalSegments]
  have checked : Run.checkpoint run = .ok () { run with events := .checkpoint :: run.events } := by
    simp [Run.checkpoint, uncancelled]
  rw [loop, Eval.outcome_bind checked, Eval.outcome_map, ← outcome_remarked ⟨_, rfl⟩]

theorem visits_template (segments : List (Segment Expr)) (typed : Bool) (run : Run σ) :
    (visits on (template segments typed) run).map Prod.fst <+: places 0 segments ∧
      ∀ v r, eval on (template segments typed) run = .ok v r →
        (visits on (template segments typed) run).map Prod.fst = places 0 segments := by
  rcases single_or_several segments typed with ⟨e, rfl, rfl⟩ | several
  · have first : (visits on (template [.value e] true) run).map Prod.fst = places 0 [Segment.value e] := by
      rw [visits, script, passOn, Script.visits, List.map_cons]
      cases parts on (template [.value e] true) 0 run <;> rfl
    rw [first]
    exact ⟨List.prefix_rfl, fun _ _ _ => rfl⟩
  · rw [eval_eq_play, visits, script.eq_3 _ _ _ several]
    exact visits_segmentScript [] 0 run fun texts run => rfl

theorem renders {segments : List (Segment Expr)} (range : InRange 0 segments) (typed : Bool) (run : Run σ) :
    Renders on segments typed run := by
  constructor
  · intro e segment single
    subst segment single
    rw [eval]
  · intro several
    rw [eval_several several]
    exact assembled_general range run
  · exact (visits_template segments typed run).1
  · exact (visits_template segments typed run).2
  · intro text plain
    exact general_plain plain
  · intro uncancelled
    rcases single_or_several segments typed with ⟨e, rfl, rfl⟩ | several
    · rw [outcome_general_single uncancelled, eval]
    · rw [eval_several several]
      exact outcome_general segments run

end Expr

namespace Session

open TemplateExpr.Expr

theorem root_of_compiled {session : Session σ} {text : Option String} {source : Except Error Source}
    {expression : Expression} (compiled : (session.compileSource text source).1 = .ok expression) :
    ∃ segments, expression.root = .template segments true ∧ QuotedSegments 0 segments := by
  obtain ⟨source, _, parsed⟩ := compileSource_ok compiled
  exact Parser.quoted_of_template parsed

theorem body_of_explained {invoked : Function σ → List Value → Run σ → Prop} {position : Nat}
    (explained : Explained invoked (.malformed position .lookBackOutOfRange)) :
    ∃ f arguments moment, invoked f arguments moment ∧
      (f.body arguments moment.host).outcome = .error (.malformed position .lookBackOutOfRange) := by
  cases explained with
  | native native => cases native
  | @body f arguments moment _ holds fails =>
    refine ⟨f, arguments, moment, holds, ?_⟩
    cases ended : (f.body arguments moment.host).outcome with
    | error e =>
      rw [ended] at fails
      cases fails
      rfl
    | _ =>
      rw [ended] at fails
      cases fails

/-- A session that has compiled an expression evaluates all templates in it by the values that they have. The
outermost template is the typed one. Every look-back is in range, so that an evaluation fails with a look-back
out of range only if a function fails with it. -/
theorem templates_agree {session : Session σ} {text : Option String} {source : Except Error Source}
    {expression : Expression} (compiled : (session.compileSource text source).1 = .ok expression) :
    (∃ segments, expression.root = .template segments true) ∧
    (∀ path segments typed, expression.root.subexpr? path = some (.template segments typed) →
      (typed = true ↔ path = []) ∧ InRange 0 segments ∧
        ∀ (on : Surroundings σ) run, Renders on segments typed run) ∧
    ∀ symbols run position,
      (session.runIn expression symbols run).1 = .error (.malformed position .lookBackOutOfRange) →
        ∃ f arguments moment, expression.root.Invokes (session.surroundings symbols) run f arguments moment ∧
          (f.body arguments moment.host).outcome = .error (.malformed position .lookBackOutOfRange) := by
  obtain ⟨segments, root, quoted⟩ := root_of_compiled compiled
  refine ⟨⟨segments, root⟩, ?_, ?_⟩
  · intro path segments' typed found
    rw [root] at found
    cases path with
    | nil =>
      cases found
      exact ⟨by simp, quoted.range, fun on run => renders quoted.range _ run⟩
    | cons i path =>
      obtain ⟨part, there, rest⟩ := Option.bind_eq_some_iff.mp found
      cases quoted_subexpr? (quoted_part quoted there) rest with
      | intro here parts =>
        obtain ⟨range, rfl⟩ := here _ _ rfl
        exact ⟨by simp, range, fun on run => renders range _ run⟩
  · intro symbols run position fails
    have ranged : expression.root.Ranged := by
      rw [root]
      exact ranged_template quoted true
    rw [runIn_eq] at fails
    obtain ⟨r, failed⟩ := Eval.error_of_outcome fails
    exact body_of_explained ((accounts_eval expression.root run).failure ranged _ _ failed)

/-- A value that stands in a template twice, once by a look-back. -/
theorem templates_agree_twice :
    let session : Session Unit := { context := {}, host := () }
    ∃ expression, (session.compile "a$\x7bx\x7d, $[1]").1 = .ok expression ∧
      ∃ segments, expression.root = .template segments true ∧ InRange 0 segments ∧
        ∀ (on : Surroundings Unit) run, Renders on segments true run := by
  intro session
  obtain ⟨expression, compiled⟩ : ∃ expression, (session.compile "a$\x7bx\x7d, $[1]").1 = .ok expression := by
    have succeeds : (session.compile "a$\x7bx\x7d, $[1]").1.toOption.isSome = true := by decide +kernel
    cases done : (session.compile "a$\x7bx\x7d, $[1]").1 with
    | ok expression => exact ⟨expression, rfl⟩
    | error e =>
      rw [done] at succeeds
      cases succeeds
  obtain ⟨⟨segments, root⟩, agree, _⟩ := templates_agree compiled
  obtain ⟨_, range, rendered⟩ := agree [] segments true (congrArg some root)
  exact ⟨expression, compiled, segments, root, range, rendered⟩

end Session

end TemplateExpr
