import TemplateExpr.Proofs.Numeral.Parts
import TemplateExpr.Proofs.Source.Ahead
/-!
The text of a numeral is what was read for it. The reader decides on the character that it stops at and on nothing
behind it, whatever part of a numeral it is at.
-/
namespace TemplateExpr.Numeral

open Source Scan

variable {s t : Source} {w : List Char}

theorem unexpected_ne_ok {s t : Source} {a : α} : (unexpected : Scan α) s ≠ .ok a t := by
  intro h
  unfold unexpected at h
  split at h <;> cases h

theorem inRun_before (base limit position : Nat) {cs : List Char} (same : cs.head? = s.current) :
    inRun base (before limit position cs) = inRun base s := by
  rw [inRun, inRun, current_before, same]

theorem runStep_ok {base : Nat} {piece : List Char} {c : Char} (current : s.current = some c)
    (h : runStep base s = .ok piece t) :
    piece = [c] ∧ s.read = .ok (some c) t ∧ (c = '_' → s.next.any (Digits.isDigitOf base) = true) := by
  unfold runStep at h
  split at h
  · exact absurd h unexpected_ne_ok
  · rename_i goes
    obtain ⟨a, u, first, h⟩ := bind_ok h
    cases h
    cases read_present current first
    refine ⟨rfl, first, ?_⟩
    rintro rfl
    simpa [current] using goes

theorem commits_run {base : Nat} (h : run base s = .ok w t) : Commits (run base) s w w t := by
  unfold run at h
  fun_induction repeatWhile (inRun base) (runStep base) _ s generalizing w t with
  | case1 s stops =>
    cases h
    refine ⟨.nothing s, fun rest stop limit position => repeatWhile_stop ?_⟩
    rw [List.nil_append, inRun_before base _ _ stop, stops]
  | case2 => cases h
  | case3 => cases h
  | case4 s going piece u first pieces v last ih =>
    cases h
    obtain ⟨c, current, _⟩ := (Option.any_eq_true ..).mp going
    obtain ⟨rfl, read, separates⟩ := runStep_ok current first
    have later := ih last
    refine ⟨.char read later.spends, fun rest stop limit position => ?_⟩
    have behind : (pieces ++ rest).head? = s.next :=
      (current_of_spends later.spends stop).trans (read_some read).2.1
    have front : (c :: (pieces ++ rest)).head? = s.current := current.symm
    have step := @runStep_before limit position base c (pieces ++ rest) fun line => by rw [behind, separates line]
    refine (repeatWhile_step ((inRun_before base limit position front).trans going) step
      (later.reads rest stop limit (position + 1))).trans ?_
    rw [List.singleton_append, List.length_cons, Nat.add_assoc, Nat.add_comm 1]

theorem commits_optionalRun (h : optionalRun s = .ok w t) : Commits optionalRun s w w t := by
  have here : Commits (if s.current.any Char.isDigit then run 10 else return []) s w w t := by
    rw [optionalRun, run_get_bind] at h
    by_cases digit : s.current.any Char.isDigit = true
    · rw [if_pos digit] at h ⊢
      exact commits_run h
    · rw [if_neg digit] at h ⊢
      cases h
      exact commits_pure [] s
  refine commits_get here fun limit position rest stop => ?_
  rw [current_before, current_of_spends here.spends stop]

/-- A point without digits on either side has been decided on by looking behind it; but that is no numeral. -/
theorem commits_fraction {whole : List Char} (h : fraction whole s = .ok w t) (some_ : whole ≠ [] ∨ w ≠ []) :
    Commits (fraction whole) s w w t := by
  rw [fraction, run_get_bind] at h
  split at h
  · rename_i opens
    have current : s.current = some '.' := by
      rw [Bool.and_eq_true, decide_eq_true_eq] at opens
      exact opens.1
    obtain ⟨point, u, read, h⟩ := bind_ok h
    cases read_present current read
    rw [run_get_bind] at h
    dsimp only at h
    split at h
    · obtain ⟨_, _, refused, _⟩ := bind_ok h
      exact absurd refused unexpected_ne_ok
    · rename_i noLine
      obtain ⟨places, v, digits, h⟩ := bind_ok h
      cases h
      change Commits (fraction whole) s ('.' :: places) ('.' :: places) t
      have taken := commits_optionalRun digits
      have behind : Commits (do
          let point ← Source.read
          if (← get).current = some '_' then unexpected
          return point.toList ++ (← optionalRun)) s ('.' :: places) ('.' :: places) t := by
        refine commits_bind (commits_read read) (commits_get ?_ fun limit position rest stop => ?_)
        · dsimp only
          rw [if_neg noLine]
          exact commits_return taken rfl
        · dsimp only
          rw [current_before, current_of_spends taken.spends stop]
      refine commits_get ?_ fun limit position rest stop => ?_
      · rw [if_pos opens]
        exact behind
      · rw [current_before, next_before, current_of_spends behind.spends stop,
          next_of_spends behind.spends (List.cons_ne_nil _ _) stop]
  · rename_i closed
    cases h
    have whole_ : whole ≠ [] := some_.resolve_right (fun none => none rfl)
    have noPoint : s.current ≠ some '.' := by simpa [whole_] using closed
    refine commits_get ?_ fun limit position rest stop => ?_
    · rw [if_neg closed]
      exact commits_pure [] s
    · rw [if_neg closed, if_neg (by simp [stop, noPoint])]

theorem commits_exponent {power : Int} (h : exponent s = .ok (w, power) t) :
    Commits exponent s w (w, power) t := by
  obtain ⟨mark, u, first, h⟩ := bind_ok h
  have marked := commits_takeIf first
  by_cases noMark : mark = []
  · rw [if_pos noMark] at h
    cases h
    subst noMark
    exact commits_bind marked (commits_pure ([], 0) _)
  · rw [if_neg noMark] at h
    obtain ⟨sign, v, second, h⟩ := bind_ok h
    rw [run_get_bind] at h
    dsimp only at h
    split at h
    · rename_i digit
      obtain ⟨digits, x, third, h⟩ := bind_ok h
      have spelled := commits_run third
      cases value : Digits.signed? 64 (withoutSeparators digits) with
      | none =>
        rw [value] at h
        cases h
      | some n =>
        rw [value] at h
        cases h
        have split : mark ++ sign ++ digits = mark ++ (sign ++ digits) := List.append_assoc ..
        rw [split]
        refine commits_bind marked ?_
        rw [if_neg noMark]
        refine commits_bind (commits_takeIf second) (commits_get ?_ fun limit position rest stop => ?_)
        · dsimp only
          rw [if_pos digit]
          exact commits_return spelled (by rw [value, split])
        · dsimp only
          rw [current_before, current_of_spends spelled.spends stop]
    · obtain ⟨_, _, refused, _⟩ := bind_ok h
      cases refused

theorem current_of_announced {s : Source} {base : Nat} (announced : announcedBase? s = some base) :
    s.current = some '0' := by
  unfold announcedBase? at announced
  split at announced
  · assumption
  · cases announced

theorem announcedBase?_before {u : Source} (spent : u.Spends w t) (taken : w ≠ []) (limit position : Nat)
    {rest : List Char} (stop : rest.head? = t.current) :
    announcedBase? (before limit position (w ++ rest)) = announcedBase? u := by
  rw [announcedBase?, announcedBase?, current_before, next_before, current_of_spends spent stop,
    next_of_spends spent taken stop]

theorem commits_marked {sign : List Char} {base : Nat} {n : Numeral} (announced : announcedBase? s = some base)
    (h : marked sign base s = .ok n t) :
    ∃ w, w ≠ [] ∧ n.text.toList = sign ++ w ∧ Commits (marked sign base) s w n t := by
  have current := current_of_announced announced
  rw [announcedBase?, if_pos current] at announced
  obtain ⟨mark, next, _⟩ := Option.bind_eq_some_iff.mp announced
  obtain ⟨zero, u, first, h⟩ := bind_ok h
  cases read_present current first
  obtain ⟨letter, v, second, h⟩ := bind_ok h
  cases read_present ((read_some first).2.1.trans next) second
  rw [run_get_bind] at h
  dsimp only at h
  split at h
  · rename_i digit
    obtain ⟨digits, x, third, h⟩ := bind_ok h
    cases h
    have spelled := commits_run third
    refine ⟨'0' :: mark :: digits, List.cons_ne_nil _ _, by simp, ?_⟩
    refine commits_bind (commits_read first) (commits_bind (commits_read second) ?_)
    refine commits_get ?_ fun limit position rest stop => ?_
    · dsimp only
      rw [if_pos digit]
      exact commits_return spelled rfl
    · dsimp only
      rw [current_before, current_of_spends spelled.spends stop]
  · obtain ⟨_, _, refused, _⟩ := bind_ok h
    cases refused

theorem commits_unmarked {sign : List Char} {n : Numeral} (h : unmarked sign s = .ok n t) :
    ∃ w, w ≠ [] ∧ n.text.toList = sign ++ w ∧ Commits (unmarked sign) s w n t := by
  obtain ⟨whole, u, first, h⟩ := bind_ok h
  obtain ⟨written, v, second, h⟩ := bind_ok h
  dsimp only at h
  split at h
  · obtain ⟨_, _, refused, _⟩ := bind_ok h
    exact absurd refused unexpected_ne_ok
  · rename_i some_
    obtain ⟨⟨ending, power⟩, x, third, h⟩ := bind_ok h
    have filled : whole ≠ [] ∨ written ≠ [] := by
      by_contra! none
      exact some_ (by simp [none.1, none.2, withoutSeparators])
    cases value : Decimal.ofDigits? (sign = ['-']) (withoutSeparators whole)
        (withoutSeparators (written.drop 1)) power with
    | none =>
      simp only [value] at h
      cases h
    | some d =>
      simp only [value] at h
      cases h
      have taken : whole ++ (written ++ ending) ≠ [] := by rcases filled with filled | filled <;> simp [filled]
      refine ⟨whole ++ (written ++ ending), taken, by simp, ?_⟩
      refine commits_bind (commits_optionalRun first) (commits_bind (commits_fraction second filled) ?_)
      dsimp only
      rw [if_neg some_]
      exact commits_return (commits_exponent third) (by rw [value])

def unsigned (sign : List Char) : Option Nat → Scan Numeral
  | some base => marked sign base
  | none => unmarked sign

theorem commits_unsigned {sign : List Char} {n : Numeral} (h : unsigned sign (announcedBase? s) s = .ok n t) :
    ∃ w, w ≠ [] ∧ n.text.toList = sign ++ w ∧ Commits (unsigned sign (announcedBase? s)) s w n t := by
  cases announced : announcedBase? s with
  | some base =>
    rw [announced] at h
    exact commits_marked announced h
  | none =>
    rw [announced] at h
    exact commits_unmarked h

theorem commits_scan {n : Numeral} (h : scan s = .ok n t) :
    n.text.toList ≠ [] ∧ Commits scan s n.text.toList n t := by
  obtain ⟨sign, u, first, h⟩ := bind_ok h
  rw [run_get_bind] at h
  obtain ⟨w, taken, text, here⟩ := commits_unsigned h
  rw [text]
  refine ⟨by simp [taken], commits_bind (commits_takeIf first) (commits_get here fun limit position rest stop => ?_)⟩
  rw [announcedBase?_before here.spends taken limit position stop]

end TemplateExpr.Numeral
