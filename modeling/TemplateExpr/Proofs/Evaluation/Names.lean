import TemplateExpr.Proofs.Evaluation.Laziness
import TemplateExpr.Proofs.Evaluation.Outcomes
import Mathlib.Logic.Basic
/-!
Variables are read by the names that an expression writes. The script of an expression looks at its own name only, and
its parts write no others than it does; so symbols that agree on these names cannot be told apart.
-/
namespace TemplateExpr

namespace Expr

mutual

/-- The names of the variables that are read or tested, in the order of the source. -/
def names : Expr → List String
  | constant _ => []
  | template segments _ => segmentNames segments
  | reference ⟨name, slice, _, _, fallback⟩ => name :: (sliceNames slice ++ fallbackNames fallback)
  | defined name => [name]
  | conditional condition yes no => names condition ++ names yes ++ names no
  | binary _ left right => names left ++ names right
  | unary _ operand => names operand
  | convert _ operand => names operand
  | call _ _ arguments => allNames arguments

def segmentNames : List (Segment Expr) → List String
  | [] => []
  | .value e :: rest => names e ++ segmentNames rest
  | .text _ :: rest => segmentNames rest
  | .lookBack _ _ :: rest => segmentNames rest

def sliceNames : Option (Slice Expr) → List String
  | none => []
  | some ⟨⟨start, _⟩, none⟩ => names start
  | some ⟨⟨start, _⟩, some ⟨count, _⟩⟩ => names start ++ names count

def fallbackNames : Option Expr → List String
  | none => []
  | some e => names e

def allNames : List Expr → List String
  | [] => []
  | e :: rest => names e ++ allNames rest

end

variable {σ : Type}

theorem names_subset_segmentNames {segments : List (Segment Expr)} {e : Expr} (inside : .value e ∈ segments) :
    e.names ⊆ segmentNames segments := by
  induction segments with
  | nil => cases inside
  | cons segment rest ih =>
    rcases List.mem_cons.mp inside with rfl | later
    · exact List.subset_append_left _ _
    · cases segment with
      | value first => exact List.Subset.trans (ih later) (List.subset_append_right _ _)
      | text s => exact ih later
      | lookBack distance position => exact ih later

theorem names_subset_allNames {arguments : List Expr} {e : Expr} (inside : e ∈ arguments) :
    e.names ⊆ allNames arguments := by
  induction arguments with
  | nil => cases inside
  | cons first rest ih =>
    rcases List.mem_cons.mp inside with rfl | later
    · exact List.subset_append_left _ _
    · exact List.Subset.trans (ih later) (List.subset_append_right _ _)

theorem names_subset_referenceNames {r : Reference Expr} {part : Expr} {i : Nat}
    (found : referencePart? r i = some part) : part.names ⊆ (reference r).names := by
  obtain ⟨name, slice, transforms, length, fallback⟩ := r
  have bounds : sliceNames slice ⊆ (reference ⟨name, slice, transforms, length, fallback⟩).names :=
    List.subset_cons_of_subset name (List.subset_append_left _ _)
  match i with
  | 0 =>
    obtain ⟨⟨⟨start, _⟩, count⟩, rfl, rfl⟩ := Option.map_eq_some_iff.mp found
    refine List.Subset.trans ?_ bounds
    cases count with
    | none => exact List.Subset.refl _
    | some count => exact List.subset_append_left _ _
  | 1 =>
    obtain ⟨⟨count, _⟩, second, rfl⟩ := Option.map_eq_some_iff.mp found
    obtain ⟨⟨⟨start, _⟩, _⟩, rfl, rfl⟩ := Option.bind_eq_some_iff.mp second
    exact List.Subset.trans (List.subset_append_right _ _) bounds
  | 2 =>
    cases found
    exact List.subset_cons_of_subset name (List.subset_append_right _ _)
  | i + 3 => cases found

theorem names_part {e part : Expr} {i : Nat} (found : e.part? i = some part) : part.names ⊆ e.names := by
  cases e with
  | constant v => cases found
  | defined name => cases found
  | template segments typed =>
    obtain ⟨segment, place, holds⟩ := Option.bind_eq_some_iff.mp found
    cases segment with
    | value e =>
      cases holds
      exact names_subset_segmentNames (List.mem_of_getElem? place)
    | text s => cases holds
    | lookBack distance position => cases holds
  | reference r => exact names_subset_referenceNames found
  | conditional condition yes no =>
    have inside := List.mem_of_getElem? found
    simp only [List.mem_cons, List.not_mem_nil, or_false] at inside
    rw [names]
    rcases inside with rfl | rfl | rfl
    · exact List.subset_append_of_subset_left _ (List.subset_append_left _ _)
    · exact List.subset_append_of_subset_left _ (List.subset_append_right _ _)
    · exact List.subset_append_right _ _
  | binary op left right =>
    have inside := List.mem_of_getElem? found
    simp only [List.mem_cons, List.not_mem_nil, or_false] at inside
    rw [names]
    rcases inside with rfl | rfl
    · exact List.subset_append_left _ _
    · exact List.subset_append_right _ _
  | unary op operand =>
    cases List.mem_singleton.mp (List.mem_of_getElem? found)
    exact List.Subset.refl _
  | convert kind operand =>
    cases List.mem_singleton.mp (List.mem_of_getElem? found)
    exact List.Subset.refl _
  | call name position arguments => exact names_subset_allNames (List.mem_of_getElem? found)

theorem script_symbols {on : Surroundings σ} {others : Symbols} {e : Expr}
    (agree : ∀ name ∈ e.names, on.symbols.read? name = others.read? name) :
    script { on with symbols := others } e = script on e := by
  cases e with
  | reference r =>
    have same := agree r.name List.mem_cons_self
    rw [script, script, same]
  | defined name =>
    have same := agree name List.mem_cons_self
    rw [script, script, same]
  | template segments typed =>
    by_cases single : ∃ part, segments = [.value part] ∧ typed = true
    · obtain ⟨part, rfl, rfl⟩ := single
      rfl
    · have several : ∀ part, segments = [.value part] → typed = true → False :=
        fun part segment alone => single ⟨part, segment, alone⟩
      rw [script, script]
      · exact several
      · exact several
  | binary op left right => cases op <;> rfl
  | _ => rfl

theorem eval_symbols {on : Surroundings σ} {others : Symbols} {e : Expr}
    (agree : ∀ name ∈ e.names, on.symbols.read? name = others.read? name) :
    eval { on with symbols := others } e = eval on e := by
  induction e using part_induction with
  | step e ih =>
    rw [eval_eq_play, eval_eq_play, script_symbols agree]
    congr 1
    funext i
    unfold parts
    cases found : e.part? i with
    | none => rfl
    | some part => exact ih i part found fun name inside => agree name (names_part found inside)

/-! ### One name -/

/-- A variable that is defined: its test, its text, and whatever stands in the place of its fallback. -/
structure Known (on : Surroundings σ) (name text : String) : Prop where
  found : on.symbols.read? name = some text
  test : eval on (defined name) = return .logic true
  plain : ∀ fallback, eval on (reference { name, fallback }) = return .text text
  unused : ∀ r : Reference Expr, r.name = name → ∀ x : Executor σ,
    assemble on (.at [2] x) (reference r) = eval on (reference r)

/-- A variable that is not defined: its test, its failure, and the fallback of any reference to it, as it is. -/
structure Unknown (on : Surroundings σ) (name : String) : Prop where
  missing : on.symbols.read? name = none
  test : eval on (defined name) = return .logic false
  plain : eval on (reference { name }) = throw (.unknownSymbol name)
  fallback : ∀ (r : Reference Expr) (d : Expr), r.name = name → r.fallback = some d →
    eval on (reference r) = eval on d

theorem known_of_read? {on : Surroundings σ} {name text : String} (found : on.symbols.read? name = some text) :
    Known on name text := by
  refine ⟨found, ?_, ?_, ?_⟩
  · rw [eval, found]
    rfl
  · intro fallback
    rw [eval, found]
    dsimp only
    rw [evalSlice]
    rfl
  · intro r same x
    funext run
    refine assemble_unreached fun path s reached => ?_
    have skipped : Skips on (reference r) run 2 := .fallback (same ▸ found)
    have other : path ≠ [2] := by
      rintro rfl
      exact not_reaches_of_skips skipped reached
    exact if_neg other

theorem unknown_of_read? {on : Surroundings σ} {name : String} (missing : on.symbols.read? name = none) :
    Unknown on name := by
  refine ⟨missing, ?_, ?_, ?_⟩
  · rw [eval, missing]
    rfl
  · rw [eval, missing]
    exact evalFallback.eq_1 on name
  · rintro ⟨name, slice, transforms, length, fallback⟩ d rfl rfl
    rw [eval, missing]
    dsimp only
    rw [evalFallback]

end Expr

namespace Session

variable {σ : Type}

/-- Symbols matter by the names that an expression writes. Symbols that agree on these lead to the same results and
leave the same run, with all the calls that it holds. And a name is either defined, and then its test, its text and its
text with a fallback that is not evaluated say so, or it is not, and then its test, its failure and its fallback do. -/
theorem symbols_by_name (session : Session σ) :
    (∀ (expression : Expression) (symbols others : Symbols),
      (∀ name ∈ expression.root.names, symbols.read? name = others.read? name) →
        (∀ run, session.runIn expression symbols run = session.runIn expression others run) ∧
        session.evaluate expression symbols = session.evaluate expression others) ∧
    ∀ symbols name, Xor (∃ text, Expr.Known (session.surroundings symbols) name text)
      (Expr.Unknown (session.surroundings symbols) name) := by
  constructor
  · intro expression symbols others agree
    have same (run : Run σ) : session.runIn expression symbols run = session.runIn expression others run := by
      have evaluates : expression.root.eval (session.surroundings others) =
          expression.root.eval (session.surroundings symbols) :=
        @Expr.eval_symbols σ (session.surroundings symbols) others expression.root agree
      rw [runIn_eq, runIn_eq, evaluates]
    refine ⟨same, ?_⟩
    unfold evaluate
    rw [same]
  · intro symbols name
    cases read : (session.surroundings symbols).symbols.read? name with
    | some text =>
      refine .inl ⟨⟨text, Expr.known_of_read? read⟩, fun unknown => ?_⟩
      exact nomatch read.symm.trans unknown.missing
    | none =>
      refine .inr ⟨Expr.unknown_of_read? read, fun ⟨text, known⟩ => ?_⟩
      exact nomatch read.symm.trans known.found

/-- A table that knows every name and one that knows two, for an expression that writes these two. -/
theorem symbols_by_name_fallback :
    let session : Session Unit := { context := {}, host := () }
    let symbols : Symbols := ⟨[.constant "x"]⟩
    let others : Symbols := ⟨[.callback fun name => if name ∈ ["a", "b"] then some "x" else none]⟩
    symbols.read? "c" ≠ others.read? "c" ∧
      ∃ expression, (session.compile "$\x7ba-$\x7bb\x7d\x7d").1 = .ok expression ∧
        (∀ name ∈ expression.root.names, symbols.read? name = others.read? name) ∧
        session.evaluate expression symbols = session.evaluate expression others := by
  intro session symbols others
  refine ⟨by decide, ?_⟩
  have names : (session.compile "$\x7ba-$\x7bb\x7d\x7d").1.toOption.map (·.root.names) = some ["a", "b"] := by
    decide +kernel
  cases compiled : (session.compile "$\x7ba-$\x7bb\x7d\x7d").1 with
  | error e =>
    rw [compiled] at names
    cases names
  | ok expression =>
    rw [compiled] at names
    have written : expression.root.names = ["a", "b"] := Option.some.inj names
    have agree : ∀ name ∈ expression.root.names, symbols.read? name = others.read? name := by
      rw [written]
      decide
    exact ⟨expression, rfl, agree, ((symbols_by_name session).1 expression symbols others agree).2⟩

end Session

end TemplateExpr
