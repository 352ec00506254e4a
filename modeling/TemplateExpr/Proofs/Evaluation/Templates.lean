import TemplateExpr.Proofs.Evaluation.Calls
import TemplateExpr.Proofs.Evaluation.Simulation
import TemplateExpr.Proofs.Expr.LookBacks
/-!
The texts of templates. What the parser lets through as a look-back, the evaluator finds: a template whose
look-backs are in range is the text that its segments contribute, the values being evaluated from the left, each
of them once. The shorter ways that are taken for a plain text and for a single value lead to the same text.
-/
namespace TemplateExpr

variable {σ : Type}

/-- The texts that segments contribute when the value segments of the whole template have the `values`; so many
of them stand before. -/
inductive Contributes (values : List Value) : Nat → List (Segment Expr) → List String → Prop where
  | nil : Contributes values values.length [] []
  | text (s : String) {before : Nat} {rest : List (Segment Expr)} {texts : List String}
      (later : Contributes values before rest texts) : Contributes values before (.text s :: rest) (s :: texts)
  | value (e : Expr) {v : Value} {before : Nat} {rest : List (Segment Expr)} {texts : List String}
      (own : values[before]? = some v) (later : Contributes values (before + 1) rest texts) :
      Contributes values before (.value e :: rest) (v.asText :: texts)
  | lookBack (position : Nat) {v : Value} {distance before : Nat} {rest : List (Segment Expr)}
      {texts : List String} (least : 1 ≤ distance) (most : distance ≤ before)
      (own : values[before - distance]? = some v) (later : Contributes values before rest texts) :
      Contributes values before (.lookBack distance position :: rest) (v.asText :: texts)

inductive Collected (earlier : List Value) (segments : List (Segment Expr)) :
    EStateM.Result Error (Run σ) (List Value) → EStateM.Result Error (Run σ) (List String) → Prop where
  | texts {values : List Value} {texts : List String} (r : Run σ)
      (contribute : Contributes (earlier ++ values) earlier.length segments texts) :
      Collected earlier segments (.ok values r) (.ok texts r)
  | failure (x : Error) (r : Run σ) : Collected earlier segments (.error x r) (.error x r)

inductive Assembled (segments : List (Segment Expr)) :
    EStateM.Result Error (Run σ) (List Value) → EStateM.Result Error (Run σ) Value → Prop where
  | text {values : List Value} {texts : List String} (r : Run σ)
      (contribute : Contributes values 0 segments texts) :
      Assembled segments (.ok values r) (.ok (.text (String.join texts)) r)
  | failure (x : Error) (r : Run σ) : Assembled segments (.error x r) (.error x r)

def places (i : Nat) : List (Segment Expr) → List Nat
  | [] => []
  | .value _ :: rest => i :: places (i + 1) rest
  | .text _ :: rest | .lookBack _ _ :: rest => places (i + 1) rest

theorem lookBack?_reverse (earlier : List Value) {distance : Nat} (least : 1 ≤ distance)
    (most : distance ≤ earlier.length) :
    ∃ v, earlier[earlier.length - distance]? = some v ∧
      lookBack? (earlier.map Value.asText).reverse distance = some v.asText := by
  have inside : earlier.length - distance < earlier.length := by omega
  have place : earlier.length - 1 - (distance - 1) = earlier.length - distance := by omega
  refine ⟨earlier[earlier.length - distance], List.getElem?_eq_getElem inside, ?_⟩
  rw [lookBack?, if_neg (by omega), List.getElem?_reverse (by simp; omega), List.length_map, place,
    List.getElem?_map, List.getElem?_eq_getElem inside]
  rfl

namespace Expr

open Script

variable (on : Surroundings σ)

def evalValues : List (Segment Expr) → Eval σ (List Value)
  | [] => return []
  | .value e :: rest => do
    Run.checkpoint
    let v ← eval on e
    return v :: (← evalValues rest)
  | .text _ :: rest | .lookBack _ _ :: rest => evalValues rest

/-- A template as a loop over its segments, whatever they are. -/
def general (segments : List (Segment Expr)) : Eval σ Value := do
  let parts ← evalSegments on [] segments
  return .text (String.join parts)

variable {on}

theorem eval_several {segments : List (Segment Expr)} {typed : Bool}
    (several : ∀ e, segments = [.value e] → typed = true → False) :
    eval on (template segments typed) = general on segments := by
  rw [eval, general]
  exact several

theorem collected_cons {earlier : List Value} {segment : Segment Expr} {rest : List (Segment Expr)} {s : String}
    {m : Eval σ (List Value)} {m' : Eval σ (List String)} {run : Run σ}
    (contributes : ∀ values texts, Contributes (earlier ++ values) earlier.length rest texts →
      Contributes (earlier ++ values) earlier.length (segment :: rest) (s :: texts))
    (later : Collected earlier rest (m run) (m' run)) :
    Collected earlier (segment :: rest) (m run) ((do return s :: (← m')) run) := by
  generalize m run = x, read : m' run = y at later
  cases later with
  | texts r contribute =>
    rw [run_bind read]
    exact .texts r (contributes _ _ contribute)
  | failure x r =>
    rw [run_bind_error read]
    exact .failure x r

theorem collected_value {earlier : List Value} {rest : List (Segment Expr)} {v : Value}
    {m : Eval σ (List Value)} {m' : Eval σ (List String)} {run : Run σ} (e : Expr)
    (later : Collected (earlier ++ [v]) rest (m run) (m' run)) :
    Collected earlier (.value e :: rest) ((do return v :: (← m)) run) ((do return v.asText :: (← m')) run) := by
  generalize valued : m run = x, read : m' run = y at later
  cases later with
  | @texts values texts r contribute =>
    rw [run_bind valued, run_bind read]
    rw [List.append_assoc, List.singleton_append, List.length_append, List.length_singleton] at contribute
    exact .texts r (.value e (by simp) contribute)
  | failure x r =>
    rw [run_bind_error valued, run_bind_error read]
    exact .failure x r

theorem collected_evalSegments (earlier : List Value) {segments : List (Segment Expr)}
    (range : InRange earlier.length segments) (run : Run σ) :
    Collected earlier segments (evalValues on segments run)
      (evalSegments on (earlier.map Value.asText).reverse segments run) := by
  -- the evaluator's list holds the texts of the earlier values, the latest first; a value goes to its front
  induction segments generalizing earlier run with
  | nil =>
    rw [evalValues, evalSegments]
    refine .texts run ?_
    rw [List.append_nil]
    exact .nil
  | cons segment rest ih =>
    cases segment with
    | text s =>
      rw [evalValues, evalSegments]
      exact collected_cons (fun values texts => .text s) (ih earlier range run)
    | value e =>
      rw [evalValues, evalSegments]
      cases checked : Run.checkpoint run with
      | error x r =>
        rw [run_bind_error checked, run_bind_error checked]
        exact .failure x r
      | ok u r =>
        rw [run_bind checked, run_bind checked]
        cases valued : eval on e r with
        | error x q =>
          rw [run_bind_error valued, run_bind_error valued]
          exact .failure x q
        | ok v q =>
          rw [run_bind valued, run_bind valued]
          apply collected_value
          have inside : InRange (earlier ++ [v]).length rest := by
            rw [List.length_append]
            exact range
          have later := ih (earlier ++ [v]) inside q
          rw [List.map_append, List.reverse_append] at later
          exact later
    | lookBack distance position =>
      obtain ⟨least, most, range⟩ := range
      obtain ⟨v, own, found⟩ := lookBack?_reverse earlier least most
      rw [evalValues, evalSegments, found]
      refine collected_cons (fun values texts later => ?_) (ih earlier range run)
      refine .lookBack position least most ?_ later
      rw [List.getElem?_append_left (by omega)]
      exact own

theorem assembled_general {segments : List (Segment Expr)} (range : InRange 0 segments) (run : Run σ) :
    Assembled segments (evalValues on segments run) (general on segments run) := by
  have collected : Collected [] segments (evalValues on segments run) (evalSegments on [] segments run) :=
    collected_evalSegments [] range run
  unfold general
  generalize evalValues on segments run = x, read : evalSegments on [] segments run = y at collected
  cases collected with
  | texts r contribute =>
    rw [run_bind read]
    exact .text r contribute
  | failure x r =>
    rw [run_bind_error read]
    exact .failure x r

section Visits

variable {parts : Nat → Executor σ} {next : List String → Script σ}

theorem visits_segmentScript (produced : List String) (i : Nat) {segments : List (Segment Expr)} (run : Run σ)
    (quiet : ∀ texts run, (next texts).visits parts run = []) :
    ((segmentScript produced i segments next).visits parts run).map Prod.fst <+: places i segments ∧
      ∀ v r, (segmentScript produced i segments next).play parts run = .ok v r →
        ((segmentScript produced i segments next).visits parts run).map Prod.fst = places i segments := by
  induction segments generalizing produced i run next with
  | nil =>
    rw [segmentScript, quiet, places]
    exact ⟨List.prefix_rfl, fun _ _ _ => rfl⟩
  | cons segment rest ih =>
    cases segment with
    | text s => exact ih produced (i + 1) run fun texts => quiet (s :: texts)
    | value e =>
      rw [segmentScript, places, Script.visits]
      cases checked : Run.checkpoint run with
      | error x r =>
        refine ⟨List.nil_prefix, fun v q ends => ?_⟩
        rw [Script.play, run_bind_error checked] at ends
        cases ends
      | ok u r =>
        dsimp only
        rw [Script.visits, List.map_cons]
        cases valued : parts i r with
        | error x q =>
          refine ⟨by simp, fun v t ends => ?_⟩
          rw [Script.play, run_bind checked, Script.play, run_bind_error valued] at ends
          cases ends
        | ok v q =>
          have later := ih (v.asText :: produced) (i + 1) q fun texts => quiet (v.asText :: texts)
          constructor
          · exact List.cons_prefix_cons.mpr ⟨rfl, later.1⟩
          · intro w t ends
            rw [Script.play, run_bind checked, Script.play, run_bind valued] at ends
            exact congrArg (i :: ·) (later.2 w t ends)
    | lookBack distance position =>
      rw [segmentScript, places]
      cases lookBack? produced distance with
      | some s => exact ih produced (i + 1) run fun texts => quiet (s :: texts)
      | none => exact ⟨List.nil_prefix, fun v r ends => by cases ends⟩

end Visits

end Expr

def Remarked (r q : Run σ) : Prop := ∃ events, q = { r with events }

def IgnoresMarks {α : Type} (m : Eval σ α) : Prop := Simulates (fun _ => False) Remarked m m

theorem ignoresMarks_checkpoint : IgnoresMarks (Run.checkpoint (σ := σ)) := by
  rintro r q ⟨events, rfl⟩
  right
  unfold Run.checkpoint
  cases flag : r.cancelled with
  | true => simpa [flag] using .error .interrupted ⟨_, rfl⟩
  | false => simpa [flag] using .ok () ⟨_, rfl⟩

theorem synchronous_remarked : Synchronous (Remarked (σ := σ)) := by
  constructor
  · rintro r _ ⟨events, rfl⟩
    rfl
  · rintro r _ ⟨events, rfl⟩
    rfl
  · rintro r _ ⟨events, rfl⟩
    rfl
  · rintro r _ host ⟨events, rfl⟩
    exact ⟨events, rfl⟩

theorem ignoresMarks_invoke (registry : Registry σ) (name : String) (values : List Value) :
    IgnoresMarks (registry.invoke name values) := by
  unfold Registry.invoke
  cases registry.get? name with
  | none => exact simulates_lift (.error _)
  | some f =>
    apply simulates_invoke synchronous_remarked
    · intro arguments host
      rfl
    · rintro r _ arguments ⟨events, rfl⟩
      exact ⟨_, rfl⟩

theorem ignoresMarks_eval (on : Surroundings σ) (e : Expr) : IgnoresMarks (e.eval on) :=
  simulates_eval ignoresMarks_checkpoint (ignoresMarks_invoke on.registry) e

theorem outcome_remarked {on : Surroundings σ} {e : Expr} {r q : Run σ} (remarked : Remarked r q) :
    (e.eval on).outcome r = (e.eval on).outcome q := by
  rcases ignoresMarks_eval on e r q remarked with ⟨x, s, stops, _⟩ | alike
  · exact stops.elim
  · exact outcome_of_alike alike

end TemplateExpr
