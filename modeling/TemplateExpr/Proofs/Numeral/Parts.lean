import TemplateExpr.Proofs.Numeral.Grammar
import TemplateExpr.Proofs.Source.Cursor
import TemplateExpr.Proofs.Text.CharClass
/-!
The parts of numerals in the scanner and in the grammar: digits, the point, the sign, the exponent. Each part
of the scanner is taken twice: what it reads has been derived by the grammar, and what the grammar derives it
reads, if nothing behind it could go on.
-/
namespace TemplateExpr.Numeral

open Source Scan

theorem base?_eq_some_iff {c : Char} {base : Nat} : base? c = some base ↔ Marks c base := by
  constructor
  · intro h
    unfold base? at h
    split at h
    · rename_i letter
      cases h
      rcases @eq_or_eq_of_toLower c 'x' 'X' letter rfl with rfl | rfl <;> constructor
    · rename_i letter
      cases h
      rcases @eq_or_eq_of_toLower c 'c' 'C' letter rfl with rfl | rfl <;> constructor
    · rename_i letter
      cases h
      rcases @eq_or_eq_of_toLower c 'b' 'B' letter rfl with rfl | rfl <;> constructor
    · cases h
  · intro h
    cases h <;> rfl

theorem isAlphanum_of_marks {c : Char} {base : Nat} (h : Marks c base) : c.isAlphanum = true := by
  cases h <;> decide

theorem not_separator_of_digit {base : Nat} {c : Char} (digit : Digits.isDigitOf base c = true) : c ≠ '_' := by
  rintro rfl
  cases digit

theorem run_head {base : Nat} {cs : List Char} (h : Run base cs) :
    ∃ d rest, cs = d :: rest ∧ Digits.isDigitOf base d = true := by
  cases h with
  | last digit => exact ⟨_, _, rfl, digit⟩
  | next digit _ => exact ⟨_, _, rfl, digit⟩
  | separated digit _ => exact ⟨_, _, rfl, digit⟩

theorem run_first {base : Nat} {cs : List Char} (h : Run base cs) :
    cs.head?.any (Digits.isDigitOf base) = true := by
  obtain ⟨d, rest, rfl, digit⟩ := run_head h
  exact digit

theorem mem_run {base : Nat} {cs : List Char} (h : Run base cs) :
    ∀ c ∈ cs, Digits.isDigitOf base c = true ∨ c = '_' := by
  induction h with
  | last digit =>
    intro c mem
    rw [List.mem_singleton.mp mem]
    exact Or.inl digit
  | next digit _ ih =>
    intro c mem
    rcases List.mem_cons.mp mem with rfl | mem
    · exact Or.inl digit
    · exact ih c mem
  | separated digit _ ih =>
    intro c mem
    rcases List.mem_cons.mp mem with rfl | mem
    · exact Or.inl digit
    · rcases List.mem_cons.mp mem with rfl | mem
      · exact Or.inr rfl
      · exact ih c mem

def Ends (rest : List Char) : Prop :=
  ∀ c ∈ rest.head?, c.isAlphanum = false ∧ c ≠ '_' ∧ c ≠ '.'

theorem ends_nil : Ends [] := by
  intro c mem
  cases mem

theorem ends_head {p : Char → Bool} {rest : List Char} (ends : Ends rest)
    (within : ∀ c, p c = true → c.isAlphanum = true ∨ c = '_' ∨ c = '.') :
    rest.head?.any p = false := by
  cases rest with
  | nil => rfl
  | cons c rest =>
    obtain ⟨letter, line, point⟩ := ends c rfl
    by_cases h : p c = true
    · rcases within c h with letter' | line' | point'
      · rw [letter] at letter'
        cases letter'
      · exact absurd line' line
      · exact absurd point' point
    · simpa using h

section Runs

variable (limit position : Nat) {base : Nat}

theorem runStep_before {c : Char} {cs : List Char}
    (h : c = '_' → cs.head?.any (Digits.isDigitOf base) = true) :
    runStep base (before limit position (c :: cs)) = .ok [c] (before limit (position + 1) cs) := by
  rw [runStep, if_neg]
  · exact run_bind (read_before_cons limit position c cs)
  · simp only [current_before, next_before, List.head?_cons, List.tail_cons, Option.some.injEq,
      Bool.and_eq_true, decide_eq_true_eq, Bool.not_eq_true', not_and, Bool.not_eq_false]
    exact h

theorem runStep_separator {cs : List Char} (h : cs.head?.any (Digits.isDigitOf base) = false) :
    runStep base (before limit position ('_' :: cs)) =
      .error (.badNumeral position (.unexpectedChar '_')) (before limit position ('_' :: cs)) := by
  rw [runStep, if_pos (by simp [h])]
  rfl

def RunEnds (base : Nat) (rest : List Char) : Prop :=
  rest.head?.any (fun c => Digits.isDigitOf base c || c == '_') = false

theorem no_digit_of_runEnds {rest : List Char} (ends : RunEnds base rest) :
    rest.head?.any (Digits.isDigitOf base) = false := by
  cases rest with
  | nil => rfl
  | cons c rest => exact (Bool.or_eq_false_iff.mp ends).1

theorem start_of_runEnds {rest : List Char} (ends : RunEnds base rest) : rest.head? ≠ some '_' := by
  intro line
  rw [RunEnds, line] at ends
  cases ends

theorem ends_run (base : Nat) {rest : List Char} (ends : Ends rest) : RunEnds base rest := by
  refine ends_head ends fun c more => ?_
  rcases Bool.or_eq_true_iff.mp more with digit | line
  · exact Or.inl (Digits.isAlphanum_of_isDigitOf digit)
  · exact Or.inr (Or.inl (by simpa using line))

theorem reads_run {w rest : List Char} (h : Run base w) (ends : RunEnds base rest) :
    Reads (run base) w w rest := by
  intro limit position
  induction h generalizing position with
  | @last d digit =>
    exact repeatWhile_step (by simp [inRun, digit])
      (runStep_before limit position fun line => absurd line (not_separator_of_digit digit))
      (repeatWhile_stop ends)
  | @next d cs digit run ih =>
    refine (repeatWhile_step (by simp [inRun, digit])
      (runStep_before limit position fun line => absurd line (not_separator_of_digit digit))
      (ih (position + 1))).trans ?_
    rw [List.length_cons, Nat.add_right_comm, Nat.add_assoc]
    rfl
  | @separated d cs digit run ih =>
    obtain ⟨e, more, rfl, second⟩ := run_head run
    refine (repeatWhile_step (by simp [inRun, digit])
      (runStep_before limit position fun line => absurd line (not_separator_of_digit digit))
      (repeatWhile_step (by simp [inRun])
        (runStep_before limit (position + 1) fun _ => by simp [second])
        (ih (position + 1 + 1)))).trans ?_
    have place : position + 1 + 1 + (e :: more).length = position + (d :: '_' :: e :: more).length := by
      simp only [List.length_cons]
      omega
    rw [place]
    rfl

theorem run_sound {cs w : List Char} {t : Source}
    (h : run base (before limit position cs) = .ok w t) :
    ∃ rest, cs = w ++ rest ∧ t = before limit (position + w.length) rest ∧
      (cs.head?.any (Digits.isDigitOf base) = true → Run base w) ∧
        ∀ d, Digits.isDigitOf base d = true → Run base (d :: w) := by
  induction cs generalizing position w t with
  | nil =>
    cases (repeatWhile_stop rfl).symm.trans h
    exact ⟨[], rfl, rfl, fun digit => absurd digit Bool.false_ne_true, fun d digit => .last digit⟩
  | cons c cs ih =>
    rcases repeatWhile_ok h with ⟨_, rfl, rfl⟩ | ⟨piece, u, rest, going, first, last, rfl⟩
    · refine ⟨c :: cs, rfl, rfl, fun digit => ?_, fun d digit => .last digit⟩
      rename_i stopped
      simp only [inRun, current_before, List.head?_cons, Option.any_some] at stopped digit
      simp [digit] at stopped
    · by_cases line : c = '_'
      · subst line
        by_cases digit : cs.head?.any (Digits.isDigitOf base) = true
        · rw [runStep_before limit position fun _ => digit] at first
          cases first
          obtain ⟨tail, rfl, rfl, starts, _⟩ := ih _ last
          refine ⟨tail, rfl, ?_, fun bad => absurd bad Bool.false_ne_true,
          fun d head => .separated head (starts digit)⟩
          rw [List.length_append, List.length_singleton, Nat.add_assoc]
        · rw [runStep_separator limit position (Bool.eq_false_iff.mpr digit)] at first
          cases first
      · rw [runStep_before limit position fun bad => absurd bad line] at first
        cases first
        obtain ⟨tail, rfl, rfl, _, goes⟩ := ih _ last
        have digit : Digits.isDigitOf base c = true := by
          simpa [inRun, line] using going
        refine ⟨tail, rfl, ?_, fun _ => goes c digit, fun d head => .next head (goes c digit)⟩
        rw [List.length_append, List.length_singleton, Nat.add_assoc]

end Runs

theorem isDigit_of_run {base : Nat} {cs : List Char} (h : Run base cs) :
    ∀ c ∈ withoutSeparators cs, Digits.isDigitOf base c = true := by
  intro c mem
  obtain ⟨inside, other⟩ := List.mem_filter.mp mem
  rcases mem_run h c inside with digit | line
  · exact digit
  · rw [line] at other
    cases other

theorem isRun_withoutSeparators {cs : List Char} (h : Run 10 cs) :
    Digits.IsRun (withoutSeparators cs) := by
  constructor
  · obtain ⟨d, rest, rfl, digit⟩ := run_head h
    have kept : (d != '_') = true := bne_iff_ne.mpr (not_separator_of_digit digit)
    simp [withoutSeparators, kept]
  · intro c mem
    rw [← Digits.isDigitOf_ten]
    exact isDigit_of_run h c mem

theorem value_withoutSeparators (cs : List Char) :
    Digits.value (withoutSeparators cs) = spelled 10 cs := Digits.valueIn_eq_foldl ..

theorem signed?_isRun {bits : Nat} {cs : List Char} (h : Digits.IsRun cs) :
    Digits.signed? bits cs =
      if FitsSigned bits (Digits.value cs) then some (Digits.value cs : Int) else none := by
  have number : Digits.run? cs = some (Digits.value cs) := if_pos h
  unfold Digits.signed?
  split
  · exact absurd (h.2 '+' List.mem_cons_self) (by decide)
  · exact absurd (h.2 '-' List.mem_cons_self) (by decide)
  · rw [number]
    change (some (Digits.value cs : Int)).filter (fun n => decide (FitsSigned bits n)) = _
    rw [Option.filter_some]
    simp only [decide_eq_true_eq]

theorem reads_optionalRun {w rest : List Char} (h : Run 10 w) (ends : RunEnds 10 rest) :
    Reads optionalRun w w rest := by
  refine reads_get fun limit position => ?_
  obtain ⟨d, more, rfl, digit⟩ := run_head h
  rw [Digits.isDigitOf_ten] at digit
  rw [if_pos (by simp [digit])]
  exact reads_run h ends

theorem reads_optionalRun_none {rest : List Char} (none : rest.head?.any Char.isDigit = false) :
    Reads optionalRun [] [] rest := by
  refine reads_get fun limit position => ?_
  rw [if_neg (by simpa using none)]
  exact reads_pure [] rest

theorem optionalRun_sound {limit position : Nat} {cs w : List Char} {t : Source}
    (h : optionalRun (before limit position cs) = .ok w t) :
    ∃ rest, cs = w ++ rest ∧ t = before limit (position + w.length) rest ∧
      (w = [] ∨ Run 10 w) := by
  rw [optionalRun, run_get_bind] at h
  split at h
  · rename_i digit
    obtain ⟨rest, rfl, rfl, run, _⟩ := run_sound limit position h
    refine ⟨rest, rfl, rfl, Or.inr (run ?_)⟩
    rw [current_before] at digit
    rwa [funext Digits.isDigitOf_ten]
  · cases h
    exact ⟨cs, rfl, rfl, Or.inl rfl⟩

theorem reads_fraction (m : Mantissa) {rest : List Char} (ends : RunEnds 10 rest)
    (point : rest.head? ≠ some '.') : Reads (fraction m.digits) m.fraction m.fraction rest := by
  have line := start_of_runEnds ends
  have none : rest.head?.any Char.isDigit = false := by
    rw [← funext Digits.isDigitOf_ten]
    exact no_digit_of_runEnds ends
  -- behind the point there are digits, or nothing that could be taken for them
  have tail : ∀ places : List Char, places = [] ∨ Run 10 places →
      (places ++ rest).head? ≠ some '_' ∧ Reads optionalRun places places rest := by
    intro places either
    rcases either with rfl | run
    · exact ⟨line, reads_optionalRun_none none⟩
    · refine ⟨?_, reads_optionalRun run ends⟩
      obtain ⟨d, more, rfl, digit⟩ := run_head run
      rintro ⟨⟩
      cases digit
  have behind : ∀ places : List Char, places = [] ∨ Run 10 places →
      Reads (do
        let point ← Source.read
        if (← get).current = some '_' then unexpected
        return point.toList ++ (← optionalRun)) ('.' :: places) ('.' :: places) rest := by
    intro places either
    refine reads_bind (reads_read '.' (places ++ rest)) (reads_get fun limit position => ?_)
    dsimp only
    split
    · rename_i bad
      exact absurd bad (tail places either).1
    · exact reads_map (tail places either).2 _
  cases m with
  | whole digits run =>
    refine reads_get fun limit position => ?_
    rw [if_neg (by simp [Mantissa.fraction, point])]
    exact reads_pure [] rest
  | point digits places run either =>
    refine reads_get fun limit position => ?_
    obtain ⟨d, more, rfl, _⟩ := run_head run
    rw [if_pos (by simp [Mantissa.fraction, Mantissa.digits])]
    exact behind places either
  | bare places run =>
    refine reads_get fun limit position => ?_
    obtain ⟨d, more, same, digit⟩ := run_head run
    rw [Digits.isDigitOf_ten] at digit
    rw [if_pos (by simp [Mantissa.fraction, Mantissa.digits, same, digit])]
    exact behind places (Or.inr run)

theorem fraction_sound {whole : List Char} {limit position : Nat} {cs w : List Char} {t : Source}
    (h : fraction whole (before limit position cs) = .ok w t) :
    ∃ rest, cs = w ++ rest ∧ t = before limit (position + w.length) rest ∧
      (w = [] ∨ ∃ places, w = '.' :: places ∧ (places = [] ∨ Run 10 places)) := by
  rw [fraction, run_get_bind] at h
  split at h
  · rename_i open_
    have head : cs.head? = some '.' := by
      simp only [current_before, Bool.and_eq_true] at open_
      exact of_decide_eq_true open_.1
    obtain ⟨cs, rfl⟩ : ∃ more, cs = '.' :: more := by
      cases cs with
      | nil => cases head
      | cons c cs => exact ⟨cs, by cases head; rfl⟩
    obtain ⟨point, u, first, h⟩ := bind_ok h
    rw [read_before_cons] at first
    cases first
    rw [run_get_bind] at h
    dsimp only at h
    split at h
    · obtain ⟨_, _, bad, _⟩ := bind_ok h
      unfold unexpected at bad
      split at bad <;> cases bad
    · obtain ⟨places, u, second, h⟩ := bind_ok h
      cases h
      obtain ⟨rest, rfl, rfl, either⟩ := optionalRun_sound second
      refine ⟨rest, rfl, ?_, Or.inr ⟨places, rfl, either⟩⟩
      rw [Option.toList_some, List.singleton_append, List.length_cons, Nat.add_right_comm,
        Nat.add_assoc]
  · cases h
    exact ⟨cs, rfl, rfl, Or.inl rfl⟩

theorem sign_apply (sign : Sign) (n : Int) :
    (if sign.chars = ['-'] then -n else n) = sign.apply n := by
  cases sign <;> rfl

theorem reads_sign (sign : Sign) {rest : List Char} (other : rest.head?.any isSign = false) :
    Reads (takeIf isSign) sign.chars sign.chars rest := by
  cases sign with
  | none => exact reads_takeIf_miss other
  | plus => exact reads_takeIf_hit (by decide) rest
  | minus => exact reads_takeIf_hit (by decide) rest

theorem sign_sound {limit position : Nat} {cs w : List Char} {t : Source}
    (h : takeIf isSign (before limit position cs) = .ok w t) :
    ∃ (sign : Sign) (rest : List Char), w = sign.chars ∧ cs = w ++ rest ∧
      t = before limit (position + w.length) rest := by
  obtain ⟨rest, split, place, ⟨rfl, _⟩ | ⟨c, rfl, mark⟩⟩ := takeIf_sound h
  · exact ⟨.none, rest, rfl, split, place⟩
  · rcases Bool.or_eq_true_iff.mp mark with plus | minus
    · cases beq_iff_eq.mp plus
      exact ⟨.plus, rest, rfl, split, place⟩
    · cases beq_iff_eq.mp minus
      exact ⟨.minus, rest, rfl, split, place⟩

theorem not_isSign_of_isDigitOf {base : Nat} {d : Char} (digit : Digits.isDigitOf base d = true) :
    isSign d = false := by
  rw [isSign, Bool.or_eq_false_iff, beq_eq_false_iff_ne, beq_eq_false_iff_ne]
  constructor <;> (rintro rfl; cases digit)

theorem noSign_of_run {base : Nat} {cs : List Char} (h : Run base cs) : cs.head?.any isSign = false := by
  obtain ⟨d, rest, rfl, digit⟩ := run_head h
  exact not_isSign_of_isDigitOf digit

theorem isMark_exponent (e : Exponent) : (e.mark == 'e' || e.mark == 'E') = true := by
  rcases e.isMark with small | capital
  · rw [small]; rfl
  · rw [capital]; rfl

def ExponentFits (exponent : Option Exponent) : Prop :=
  ∀ e ∈ exponent, FitsSigned 64 (spelled 10 e.digits)

theorem reads_exponent {e : Option Exponent} {rest : List Char} (fits : ExponentFits e)
    (ends : Ends rest) :
    Reads exponent (exponentChars e) (exponentChars e, exponentPower e) rest := by
  cases e with
  | none =>
    refine reads_bind (u := []) (reads_takeIf_miss (ends_head ends fun c letter => ?_))
      (reads_pure ([], 0) rest)
    left
    rcases Bool.or_eq_true_iff.mp letter with small | capital
    · cases beq_iff_eq.mp small; rfl
    · cases beq_iff_eq.mp capital; rfl
  | some e =>
    have mark := isMark_exponent e
    have number : Digits.signed? 64 (withoutSeparators e.digits) = some (spelled 10 e.digits : Int) := by
      rw [signed?_isRun (isRun_withoutSeparators e.run), value_withoutSeparators, if_pos (fits e rfl)]
    have whole : exponentChars (some e) = [e.mark] ++ (e.sign.chars ++ e.digits) := rfl
    rw [whole]
    refine reads_bind (reads_takeIf_hit mark _) ?_
    rw [if_neg (List.cons_ne_nil _ _)]
    obtain ⟨d, more, same, digit⟩ := run_head e.run
    refine reads_bind (reads_sign e.sign ?_) (reads_get fun limit position => ?_)
    · rw [same]
      exact not_isSign_of_isDigitOf digit
    · have first : (before limit position (e.digits ++ rest)).current.any Char.isDigit = true := by
        rw [current_before, same, ← funext Digits.isDigitOf_ten]
        exact digit
      dsimp only
      rw [if_pos first]
      intro limit position
      rw [run_bind (reads_run e.run (ends_run 10 ends) limit position), number]
      dsimp only
      rw [sign_apply]
      rfl

theorem exponent_sound {limit position : Nat} {cs w : List Char} {power : Int} {t : Source}
    (h : exponent (before limit position cs) = .ok (w, power) t) :
    ∃ e rest, w = exponentChars e ∧ power = exponentPower e ∧ ExponentFits e ∧
      cs = w ++ rest ∧ t = before limit (position + w.length) rest := by
  obtain ⟨mark, u, first, h⟩ := bind_ok h
  obtain ⟨cs, rfl, rfl, ⟨rfl, _⟩ | ⟨c, rfl, isMark⟩⟩ := takeIf_sound first
  · cases h
    refine ⟨none, cs, rfl, rfl, ?_, rfl, rfl⟩
    rintro e ⟨⟩
  · rw [if_neg (List.cons_ne_nil _ _)] at h
    obtain ⟨_, u, second, h⟩ := bind_ok h
    obtain ⟨sign, cs, rfl, rfl, rfl⟩ := sign_sound second
    rw [run_get_bind] at h
    dsimp only at h
    split at h
    · rename_i digit
      obtain ⟨digits, u, third, h⟩ := bind_ok h
      obtain ⟨rest, rfl, rfl, run, _⟩ := run_sound _ _ third
      rw [current_before, ← funext Digits.isDigitOf_ten] at digit
      have run := run digit
      rw [signed?_isRun (isRun_withoutSeparators run), value_withoutSeparators] at h
      by_cases fits : FitsSigned 64 (spelled 10 digits)
      · rw [if_pos fits] at h
        dsimp only at h
        rw [sign_apply] at h
        cases h
        have letter : c = 'e' ∨ c = 'E' := by
          rcases Bool.or_eq_true_iff.mp isMark with small | capital
          · exact Or.inl (beq_iff_eq.mp small)
          · exact Or.inr (beq_iff_eq.mp capital)
        refine ⟨some ⟨c, sign, digits, letter, run⟩, rest, rfl, rfl, ?_, ?_, ?_⟩
        · rintro e ⟨⟩
          exact fits
        · simp
        · congr 1
          simp only [List.length_append, List.length_singleton]
          omega
      · rw [if_neg fits] at h
        cases h
    · obtain ⟨_, _, bad, _⟩ := bind_ok h
      cases bad

end TemplateExpr.Numeral
