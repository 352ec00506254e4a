import TemplateExpr.Proofs.Token.Scanning
import TemplateExpr.Proofs.Token.Terminals
/-!
Progress. A template is read by turns as text and as expressions, and it is up to the reader which way comes next.
However the turns are taken, each terminal but the stop takes the source on by a character or more, and the stop
comes only where the source is over.
-/
namespace TemplateExpr.Token

open Scan

def Fruitful (scan : Scan (List Char)) : Prop := ∀ s cs t, scan s = .ok cs t → cs ≠ []

theorem fruitful_pure {cs : List Char} (nonempty : cs ≠ []) : Fruitful (pure cs) := by
  intro s _ t done
  cases done
  exact nonempty

theorem fruitful_throw (e : Error) : Fruitful (throw e) := by
  intro s cs t done
  cases done

theorem fruitful_after {α : Type} {scan : Scan α} {f : α → Scan (List Char)} (rest : ∀ a, Fruitful (f a)) :
    Fruitful (scan >>= f) := by
  intro s cs t done
  obtain ⟨a, u, _, later⟩ := bind_ok done
  exact rest a u cs t later

theorem fruitful_scanCode : Fruitful scanCode := by
  apply fruitful_after
  intro start
  apply fruitful_after
  intro code
  split
  · exact fruitful_pure (List.cons_ne_nil _ _)
  · exact fruitful_throw _

theorem fruitful_scanEscaped : Fruitful scanEscaped := by
  apply fruitful_after
  intro s
  split
  · exact fruitful_after fun _ => fruitful_scanCode
  · split
    · exact fruitful_after fun _ => fruitful_pure (List.cons_ne_nil _ _)
    · exact fruitful_pure (List.cons_ne_nil _ _)
  · exact fruitful_pure (List.cons_ne_nil _ _)

theorem scanPiece_progress {s t : Source} {piece : List Char} (present : s.current.isSome = true)
    (done : scanPiece s = .ok piece t) : piece ≠ [] ∧ s.position < t.position := by
  obtain ⟨c, current⟩ := Option.isSome_iff_exists.mp present
  unfold scanPiece at done
  split at done
  · cases done
  · obtain ⟨a, u, first, rest⟩ := bind_ok done
    cases Source.read_present current first
    have place := (Source.read_some first).2.2
    split at rest
    · have later := (onlyReads_scanEscaped.moves u piece t rest).position_le.1
      exact ⟨fruitful_scanEscaped u piece t rest, by omega⟩
    · cases rest
      exact ⟨by simp, by omega⟩

theorem scanText_progress {follow : Option Char} {s t : Source} {cs : List Char}
    (inside : inText follow s = true) (done : scanText follow s = .ok cs t) : cs ≠ [] ∧ s.position < t.position := by
  have present : s.current.isSome = true := by
    simp only [inText, Bool.and_eq_true] at inside
    exact inside.1.1
  rcases repeatWhile_ok done with ⟨outside, _⟩ | ⟨piece, u, rest, _, first, later, rfl⟩
  · rw [inside] at outside
    cases outside
  · obtain ⟨nonempty, place⟩ := scanPiece_progress present first
    have further := ((onlyReads_scanText follow).moves u rest t later).position_le.1
    exact ⟨by simp [nonempty], by omega⟩

structure Advances (s u : Source) (t : Terminal) : Prop where
  stop : t.token = .stop → u.current = none
  further : t.token ≠ .stop → s.position < u.position

theorem nextText_advances {follow : Option Char} {s u : Source} {t : Terminal}
    (done : nextText follow s = .ok t u) : Advances s u t := by
  cases nextText_ok done with
  | stop ended same => exact ⟨fun _ => same ▸ ended, fun more => absurd rfl more⟩
  | follow _ first =>
    have place := (Source.read_some first).2.2
    exact ⟨nofun, fun _ => by omega⟩
  | opener opens first second =>
    have place := (Source.read_some first).2.2
    have place' := (Source.read_some second).2.2
    exact ⟨fun stop => absurd stop (opener?_ne opens).2.1, fun _ => by omega⟩
  | function first named =>
    have place := (Source.read_some first).2.2
    have later := (onlyReads_scanIdentifier.moves _ _ _ named).position_le.1
    exact ⟨nofun, fun _ => by omega⟩
  | text inside scanned => exact ⟨nofun, fun _ => (scanText_progress inside scanned).2⟩

theorem nextText_text_ne_empty {follow : Option Char} {s u : Source} {t : Terminal}
    (done : nextText follow s = .ok t u) (text : t.token = .text) : t.lexeme ≠ "" := by
  cases nextText_ok done with
  | opener opens => exact absurd text (opener?_ne opens).2.2
  | text inside scanned => simpa using (scanText_progress inside scanned).1
  | stop | follow | function => cases text

theorem nextExpression_advances {s u : Source} {t : Terminal} (done : nextExpression s = .ok t u) :
    Advances s u t := by
  obtain ⟨w, v, spent, _, reads⟩ := nextExpression_ok done
  constructor
  · intro stop
    have same := reads.spends
    rw [reads.empty_iff.mpr stop] at same
    cases same
    exact reads.stop_iff.mp stop
  · intro more
    have nonempty := List.length_pos_iff.mpr (mt reads.empty_iff.mp more)
    have place := spent.position_eq
    have place' := reads.spends.position_eq
    omega

inductive Mode where
  | expression
  | text (closing : Option Char)

def Mode.next : Mode → Scan Terminal
  | .expression => nextExpression
  | .text closing => nextText closing

theorem Mode.onlyReads_next (mode : Mode) : OnlyReads mode.next := by
  cases mode with
  | expression => exact onlyReads_nextExpression
  | text closing => exact onlyReads_nextText closing

theorem Mode.advances {mode : Mode} {s u : Source} {t : Terminal} (done : mode.next s = .ok t u) :
    Advances s u t := by
  cases mode with
  | expression => exact nextExpression_advances done
  | text closing => exact nextText_advances done

/-- Calls in these modes, one after the other, lead from one source to the other, and none of them brings the
stop. -/
inductive Passes : Source → List Mode → Source → Prop where
  | nothing (s : Source) : Passes s [] s
  | call {s t u : Source} {mode : Mode} {modes : List Mode} {terminal : Terminal}
      (first : mode.next s = .ok terminal t) (more : terminal.token ≠ .stop) (rest : Passes t modes u) :
      Passes s (mode :: modes) u

/-- The call brings the stop, at the end of the source, or fails. -/
def Halts (mode : Mode) (s : Source) : Prop :=
  (∃ t u, mode.next s = .ok t u ∧ t.token = .stop ∧ u.current = none) ∨ ∃ e u, mode.next s = .error e u

theorem Passes.reaches {s u : Source} {modes : List Mode} (passes : Passes s modes u) : s.Reaches u := by
  induction passes with
  | nothing s => exact .refl s
  | @call _ _ _ mode _ _ first _ _ ih => exact (mode.onlyReads_next.moves _ _ _ first).trans ih

theorem Passes.position_le {s u : Source} {modes : List Mode} (passes : Passes s modes u) :
    s.position + modes.length ≤ u.position := by
  induction passes with
  | nothing => simp
  | call first more _ ih =>
    have further := (Mode.advances first).further more
    rw [List.length_cons]
    omega

theorem passes_or_halts (modes : List Mode) (s : Source) :
    (∃ u, Passes s modes u) ∨
      ∃ front mode back u, modes = front ++ mode :: back ∧ Passes s front u ∧ Halts mode u := by
  induction modes generalizing s with
  | nil => exact .inl ⟨s, .nothing s⟩
  | cons mode modes ih =>
    cases done : mode.next s with
    | error e t => exact .inr ⟨[], mode, modes, s, rfl, .nothing s, .inr ⟨e, t, done⟩⟩
    | ok terminal t =>
      by_cases stop : terminal.token = .stop
      · exact .inr ⟨[], mode, modes, s, rfl, .nothing s, .inl ⟨terminal, t, done, stop, (Mode.advances done).stop stop⟩⟩
      · rcases ih t with ⟨u, passes⟩ | ⟨front, last, back, u, rfl, passes, halts⟩
        · exact .inl ⟨u, .call done stop passes⟩
        · exact .inr ⟨mode :: front, last, back, u, rfl, .call done stop passes, halts⟩

theorem Passes.length_le {limit : Nat} {text : String} {s u : Source} {modes : List Mode}
    (opened : Source.ofText limit text = .ok s) (passes : Passes s modes u) : modes.length ≤ text.length := by
  obtain ⟨views, first⟩ := Source.views_ofText opened
  have inside := (views.reaches passes.reaches).in_view.2.1
  have further := passes.position_le
  rw [String.length_toList] at inside
  omega

theorem halts_within {limit : Nat} {text : String} {s : Source} {modes : List Mode}
    (opened : Source.ofText limit text = .ok s) (enough : text.length < modes.length) :
    ∃ front mode back u, modes = front ++ mode :: back ∧ front.length ≤ text.length ∧ Passes s front u ∧
      Halts mode u := by
  rcases passes_or_halts modes s with ⟨u, passes⟩ | ⟨front, mode, back, u, split, passes, halts⟩
  · exact absurd (passes.length_le opened) (Nat.not_le_of_lt enough)
  · exact ⟨front, mode, back, u, split, passes.length_le opened, passes, halts⟩

end TemplateExpr.Token
