import TemplateExpr.Expr.Outline
import TemplateExpr.Proofs.Expr.Printable
import TemplateExpr.Proofs.Expr.TemplateReading
/-!
Printing and parsing. Every printable template can be written with no more parentheses than it needs, and
however a template is written, with the places that it holds where it is written, parsing brings it back.
-/
namespace TemplateExpr

open Token Source TemplateExpr.Expr

structure PrintableTemplate (allow : String → Nat → Except Error Unit) (ss : List (Segment Expr)) : Prop where
  order : Ordered 0 ss
  values : ∀ e, Segment.value e ∈ ss → Printable allow e

variable {allow : String → Nat → Except Error Unit} {ss : List (Segment Expr)}

theorem written_of_printable (printable : PrintableTemplate allow ss) :
    ∃ ss' text, unplacedSegments ss' = unplacedSegments ss ∧
      Written True allow (.segments none 0 ss') 1 (String.toList text) := by
  have values := fun e mem => canWrite_rung (canWrite_of_printable (printable.values e mem)) (Nat.zero_le 7)
  obtain ⟨ss', w, same, written⟩ := segments_written (Or.inl rfl) printable.order values 1
  refine ⟨ss', String.ofList w, same, ?_⟩
  rw [String.toList_ofList]
  exact written

theorem written_unique {tight tight' : Prop} {ss' : List (Segment Expr)} {text : String}
    (written : Written tight allow (.segments none 0 ss) 1 text.toList)
    (written' : Written tight' allow (.segments none 0 ss') 1 text.toList) : ss = ss' := by
  obtain ⟨source, opened, parsed⟩ := Parser.template_of_written written (Nat.le_refl _) {}
  obtain ⟨source', opened', parsed'⟩ := Parser.template_of_written written' (Nat.le_refl _) {}
  cases opened.symm.trans opened'
  cases parsed.symm.trans parsed'
  rfl

/-- Parsing inverts printing. Every printable template can be written, up to its places, and every text that is
written for a template, with or without spare parentheses, is parsed as that template. -/
theorem template_round_trip (allow : String → Nat → Except Error Unit) :
    (∀ ss, PrintableTemplate allow ss → ∃ ss' text, unplacedSegments ss' = unplacedSegments ss ∧
      Written True allow (.segments none 0 ss') 1 (String.toList text)) ∧
    ∀ tight ss text limit pool, Written tight allow (.segments none 0 ss) 1 (String.toList text) →
      text.utf8ByteSize ≤ limit → ∃ source, Source.ofText limit text = .ok source ∧
        (Parser.template allow source pool).1 = .ok (.template ss true) := by
  constructor
  · intro ss printable
    exact written_of_printable printable
  · intro tight ss text limit pool written fits
    exact Parser.template_of_written written fits pool

def parseText (text : String) : Except Error Expr := do
  let source ← Source.ofText text.utf8ByteSize text
  (Parser.template (fun _ _ => .ok ()) source {}).1

/-- A comment that follows the length of a variable at once hides it, since the comment is taken to begin with
the hash of the length. A comment with U+FFFF cannot be read. -/
theorem parseText_hidden :
    (parseText ("$\x7bs #" ++ "##c## " ++ "\x7d")).toOption.map outline = some "(tpl (var s))" ∧
      parseText ("$\x7bs #" ++ "##c## " ++ "\x7d") ≠
        .ok (.template [.value (.reference { name := "s", length := true })] true) ∧
      ∀ e, parseText ("$\x7bs " ++ "##\uffff## " ++ "\x7d") ≠ .ok e := by
  have hidden : (parseText ("$\x7bs #" ++ "##c## " ++ "\x7d")).toOption.map outline = some "(tpl (var s))" := by
    decide +kernel
  have refused : (parseText ("$\x7bs " ++ "##\uffff## " ++ "\x7d")).toOption.map outline = none := by
    decide +kernel
  refine ⟨hidden, fun same => ?_, fun e same => ?_⟩
  · rw [same] at hidden
    exact absurd hidden (by decide +kernel)
  · rw [same] at refused
    cases refused

end TemplateExpr
