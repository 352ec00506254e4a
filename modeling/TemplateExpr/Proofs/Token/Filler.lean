import TemplateExpr.Token.Expression
import TemplateExpr.Proofs.Source.Spans
/-!
What may stand between the tokens of an expression: white space and comments. A comment is over at its two closing
hashes or with its line, whichever comes first. Only behind the last token may one end with the text instead.
-/
namespace TemplateExpr.Token

open Scan

def Unbroken (body : List Char) : Prop := '\n' ∉ body ∧ ¬ ['#', '#'] <:+: body

inductive Comment : List Char → Prop where
  | closed {body : List Char} (unbroken : Unbroken (body ++ ['#'])) : Comment ('#' :: '#' :: body ++ ['#', '#'])
  | line {body : List Char} (unbroken : Unbroken body) : Comment ('#' :: '#' :: body ++ ['\n'])

inductive Filler : List Char → Prop where
  | nil : Filler []
  | blank {c : Char} {w : List Char} (blank : isBlank c = true) (rest : Filler w) : Filler (c :: w)
  | comment {v w : List Char} (comment : Comment v) (rest : Filler w) : Filler (v ++ w)

/-- Filler in which a last comment is still open. -/
def OpenFiller (w : List Char) : Prop :=
  ∃ front body, Filler front ∧ Unbroken body ∧ w = front ++ '#' :: '#' :: body

theorem Filler.append {v w : List Char} (first : Filler v) (second : Filler w) : Filler (v ++ w) := by
  induction first with
  | nil => exact second
  | blank h _ ih => exact .blank h ih
  | comment h _ ih =>
    rw [List.append_assoc]
    exact .comment h ih

theorem unbroken_cons {c : Char} {body : List Char} (line : c ≠ '\n') (hashes : c = '#' → body.head? ≠ some '#')
    (unbroken : Unbroken body) : Unbroken (c :: body) := by
  constructor
  · simp [unbroken.1, line.symm]
  · intro inside
    rcases List.infix_cons_iff.mp inside with first | later
    · obtain ⟨same, rest⟩ := List.cons_prefix_cons.mp first
      obtain ⟨more, rfl⟩ := rest
      exact hashes same.symm rfl
    · exact unbroken.2 later

theorem inComment_iff (s : Source) :
    inComment s = true ↔ ∃ c, s.current = some c ∧ c ≠ '\n' ∧ (c = '#' → s.next ≠ some '#') := by
  cases current : s.current with
  | none => simp [inComment, current]
  | some c =>
    simp [inComment, atComment, current]
    grind

theorem unbroken_of_inComment {s u t : Source} {c : Char} {body : List Char} (going : inComment s = true)
    (read : s.read = .ok (some c) u) (spent : u.Spends body t) (last : List Char) (unbroken : Unbroken (body ++ last))
    (seen : last <+: t.current.toList) : Unbroken (c :: body ++ last) := by
  obtain ⟨current, next, _⟩ := Source.read_some read
  obtain ⟨d, found, line, hashes⟩ := (inComment_iff s).mp going
  cases current.symm.trans found
  refine unbroken_cons line (fun hash again => hashes hash ?_) unbroken
  obtain ⟨more, behind⟩ := seen
  change (body ++ last).head? = some '#' at again
  rw [← next, spent.current_eq, ← behind, ← List.append_assoc, List.head?_append, again]
  rfl

theorem unbroken_nil : Unbroken [] := by simp [Unbroken]

theorem unbroken_hash : Unbroken ['#'] := unbroken_cons (by decide) (by simp) unbroken_nil

theorem scanCommentBody_ok {s t : Source} {body : List Char} (h : scanCommentBody s = .ok body t) :
    s.Spends body t ∧ inComment t = false ∧ Unbroken body ∧
      (t.current = some '#' → Unbroken (body ++ ['#'])) := by
  unfold scanCommentBody at h
  fun_induction repeatWhile inComment _ _ s generalizing body t with
  | case1 s ended =>
    cases h
    exact ⟨.nothing s, ended, unbroken_nil, fun _ => unbroken_hash⟩
  | case2 => cases h
  | case3 => cases h
  | case4 s going piece u first pieces v rest ih =>
    cases h
    obtain ⟨a, w, read, last⟩ := bind_ok first
    cases last
    obtain ⟨c, current, _⟩ := (inComment_iff s).mp going
    cases Source.read_present current read
    obtain ⟨spent, ended, body, hash⟩ := ih rest
    refine ⟨.char read spent, ended, ?_, fun closing => ?_⟩
    · have longer := unbroken_of_inComment going read spent [] (by simpa using body) (by simp)
      simpa using longer
    · exact unbroken_of_inComment going read spent _ (hash closing) (by simp [closing])

theorem scanComment_ok {s t : Source} {w : List Char} (opens : atComment s = true)
    (h : scanComment s = .ok w t) :
    s.Spends w t ∧ (Comment w ∨ t.current = none ∧ ∃ body, Unbroken body ∧ w = '#' :: '#' :: body) := by
  simp only [atComment, Bool.and_eq_true, decide_eq_true_eq] at opens
  unfold scanComment at h
  obtain ⟨a, u, first, h⟩ := bind_ok h
  cases Source.read_present opens.1 first
  obtain ⟨b, v, second, h⟩ := bind_ok h
  cases Source.read_present ((Source.read_some first).2.1.trans opens.2) second
  obtain ⟨body, x, inside, h⟩ := bind_ok h
  obtain ⟨spent, ended, unbroken, hash⟩ := scanCommentBody_ok inside
  obtain ⟨closing, y, close, h⟩ := bind_ok h
  cases h
  have front : s.Spends ('#' :: '#' :: body) x := .char first (.char second spent)
  unfold scanCommentEnd at close
  rw [run_get_bind] at close
  obtain ⟨a, z, third, close⟩ := bind_ok close
  split at close
  · rename_i two
    simp only [atComment, Bool.and_eq_true, decide_eq_true_eq] at two
    cases Source.read_present two.1 third
    obtain ⟨b, q, fourth, close⟩ := bind_ok close
    cases Source.read_present ((Source.read_some third).2.1.trans two.2) fourth
    cases close
    exact ⟨front.append (.char third (.char fourth (.nothing _))), Or.inl (.closed (hash two.1))⟩
  · rename_i two
    cases close
    refine ⟨front.append (Source.spends_read third), ?_⟩
    cases a with
    | none =>
      obtain ⟨stops, rfl⟩ := Source.read_none third
      exact Or.inr ⟨stops, body, unbroken, by simp⟩
    | some c =>
      have current := (Source.read_some third).1
      obtain rfl : c = '\n' := by simpa [inComment, current, two] using ended
      exact Or.inl (.line unbroken)

theorem OpenFiller.after {v w : List Char} (filler : Filler v) (rest : OpenFiller w) : OpenFiller (v ++ w) := by
  obtain ⟨front, body, before, unbroken, rfl⟩ := rest
  exact ⟨v ++ front, body, filler.append before, unbroken, (List.append_assoc ..).symm⟩

theorem scanTrivia_at_end {s t : Source} {w : List Char} (ended : s.current = none)
    (h : scanTrivia s = .ok w t) : w = [] ∧ t = s := by
  have still : atTrivia s = false := by simp [atTrivia, atComment, ended]
  cases (repeatWhile_stop still).symm.trans h
  exact ⟨rfl, rfl⟩

theorem scanTrifle_ok {s t : Source} {w : List Char} (starts : atTrivia s = true)
    (h : scanTrifle s = .ok w t) : s.Spends w t ∧ (Filler w ∨ t.current = none ∧ OpenFiller w) := by
  unfold scanTrifle at h
  split at h
  · rename_i blank
    obtain ⟨a, u, read, h⟩ := bind_ok h
    cases h
    refine ⟨Source.spends_read read, Or.inl ?_⟩
    cases a with
    | none => exact .nil
    | some c =>
      rw [(Source.read_some read).1, Option.any_some] at blank
      exact .blank blank .nil
  · rename_i visible
    have opens : atComment s = true := by simpa [atTrivia, visible] using starts
    obtain ⟨spent, comment | ⟨ended, body, unbroken, rfl⟩⟩ := scanComment_ok opens h
    · exact ⟨spent, Or.inl (by simpa using Filler.comment comment .nil)⟩
    · exact ⟨spent, Or.inr ⟨ended, [], body, .nil, unbroken, rfl⟩⟩

theorem scanTrivia_ok {s t : Source} {w : List Char} (h : scanTrivia s = .ok w t) :
    s.Spends w t ∧ (Filler w ∨ t.current = none ∧ OpenFiller w) := by
  unfold scanTrivia at h
  fun_induction repeatWhile atTrivia _ _ s generalizing w t with
  | case1 s =>
    cases h
    exact ⟨.nothing s, Or.inl .nil⟩
  | case2 => cases h
  | case3 => cases h
  | case4 s going piece u first pieces v rest ih =>
    cases h
    obtain ⟨spent, filler⟩ := ih rest
    obtain ⟨spent', filler' | ⟨ended, unclosed⟩⟩ := scanTrifle_ok going first
    · refine ⟨spent'.append spent, ?_⟩
      rcases filler with filler | ⟨ended, unclosed⟩
      · exact Or.inl (filler'.append filler)
      · exact Or.inr ⟨ended, unclosed.after filler'⟩
    · obtain ⟨rfl, rfl⟩ := scanTrivia_at_end ended rest
      exact ⟨by simpa using spent', Or.inr ⟨ended, by simpa using unclosed⟩⟩

end TemplateExpr.Token
