import TemplateExpr.Proofs.Numeral.Readers
/-!
The places of separators. A separator is in its place between two digits of one run, and what the runs of a text are
its literal without separators tells. Since no two runs of a literal touch, the two characters next to a separator
decide: `betweenDigits_iff`.
-/
namespace TemplateExpr.Numeral

namespace Literal

/-- A run of the literal, with what stands before it and behind it. -/
inductive HasRun : Literal → List Char → List Char → List Char → Prop where
  | marked (sign : Sign) {mark : Char} {base : Nat} {digits : List Char} (marks : Marks mark base)
      (run : Run base digits) :
      HasRun ⟨sign, .marked mark base digits marks run⟩ (sign.chars ++ ['0', mark]) digits []
  | digits (sign : Sign) (m : Mantissa) (e : Option Exponent) :
      HasRun ⟨sign, .decimal m e⟩ sign.chars m.digits (m.fraction ++ exponentChars e)
  | places (sign : Sign) {m : Mantissa} (point : m.fraction = '.' :: m.places) (e : Option Exponent) :
      HasRun ⟨sign, .decimal m e⟩ (sign.chars ++ m.digits ++ ['.']) m.places (exponentChars e)
  | exponent (sign : Sign) (m : Mantissa) (e : Exponent) :
      HasRun ⟨sign, .decimal m (some e)⟩ (sign.chars ++ m.chars ++ e.mark :: e.sign.chars) e.digits []

/-- A separator between these two parts of a text, of which `l` is the literal without separators, stands between
two digits of one run. -/
def BetweenDigits (l : Literal) (front back : List Char) : Prop :=
  front.getLast? ≠ some '_' ∧ back.head? ≠ some '_' ∧
    ∃ start ds ds' rest, l.HasRun start (ds ++ ds') rest ∧ ds ≠ [] ∧ ds' ≠ [] ∧
      withoutSeparators front = start ++ ds ∧ withoutSeparators back = ds' ++ rest

def SeparatorsFit (l : Literal) (cs : List Char) : Prop :=
  ∀ front back, cs = front ++ '_' :: back → l.BetweenDigits front back

def base (l : Literal) : Nat :=
  match l.body with
  | .marked _ base _ _ _ => base
  | .decimal _ _ => 10

theorem HasRun.chars {l : Literal} {start run rest : List Char} (h : l.HasRun start run rest) :
    l.chars = start ++ run ++ rest := by
  cases h with
  | marked sign marks run => simp [Literal.chars, Body.chars]
  | digits sign m e => simp [Literal.chars, Body.chars, Mantissa.chars]
  | places sign point e => simp [Literal.chars, Body.chars, Mantissa.chars, point]
  | exponent sign m e => simp [Literal.chars, Body.chars, exponentChars, Exponent.chars]

end Literal

theorem run_digits (m : Mantissa) : m.digits = [] ∨ Run 10 m.digits := by
  cases m with
  | whole _ run => exact Or.inr run
  | point _ _ run _ => exact Or.inr run
  | bare _ _ => exact Or.inl rfl

theorem run_places (m : Mantissa) : m.places = [] ∨ Run 10 m.places := by
  cases m with
  | whole _ _ => exact Or.inl rfl
  | point _ _ _ tail => exact tail
  | bare _ run => exact Or.inr run

theorem Literal.HasRun.mem {l : Literal} {start run rest : List Char} (h : l.HasRun start run rest) :
    ∀ c ∈ run, Digits.isDigitOf l.base c = true ∨ c = '_' := by
  have optional {cs : List Char} (run : cs = [] ∨ Run 10 cs) :
      ∀ c ∈ cs, Digits.isDigitOf 10 c = true ∨ c = '_' := by
    rcases run with rfl | run
    · rintro c ⟨⟩
    · exact mem_run run
  cases h with
  | marked sign marks run => exact mem_run run
  | digits sign m e => exact optional (run_digits m)
  | places sign point e => exact optional (run_places _)
  | exponent sign m e => exact mem_run e.run

section Neighbours

theorem pair_append {p : Char → Bool} {a b u v : List Char} {c d : Char}
    (same : a ++ b = u ++ c :: d :: v) (first : p c = true) (second : p d = true)
    (seam : a.getLast?.any p = false ∨ b.head?.any p = false) :
    (∃ v', a = u ++ c :: d :: v') ∨ ∃ u', u = a ++ u' ∧ b = u' ++ c :: d :: v := by
  rcases List.append_eq_append_iff.mp same with ⟨u', rfl, behind⟩ | ⟨a', rfl, behind⟩
  · exact Or.inr ⟨u', rfl, behind⟩
  · cases a' with
    | nil => exact Or.inr ⟨[], by simp, behind.symm⟩
    | cons c' a' =>
      obtain ⟨rfl, behind⟩ := List.cons.inj behind
      cases a' with
      | nil =>
        cases behind
        simp [first, second] at seam
      | cons d' a' =>
        cases behind
        exact Or.inl ⟨a', rfl⟩

theorem getLast?_withoutSeparators {cs : List Char} (last : cs.getLast? ≠ some '_') :
    (withoutSeparators cs).getLast? = cs.getLast? := by
  rcases List.eq_nil_or_concat cs with rfl | ⟨front, c, rfl⟩
  · rfl
  · rw [List.concat_eq_append] at last ⊢
    have other : c ≠ '_' := by simpa using last
    rw [withoutSeparators_append, withoutSeparators_cons other]
    simp [withoutSeparators]

theorem head?_withoutSeparators {cs : List Char} (head : cs.head? ≠ some '_') :
    (withoutSeparators cs).head? = cs.head? := by
  cases cs with
  | nil => rfl
  | cons c cs =>
    have other : c ≠ '_' := by simpa using head
    rw [withoutSeparators_cons other, List.head?_cons, List.head?_cons]

theorem not_digit_of_marks {mark : Char} {base : Nat} (marks : Marks mark base) :
    Digits.isDigitOf base mark = false := by
  cases marks <;> rfl

theorem not_digit_of_sign (sign : Sign) (base : Nat) :
    sign.chars.getLast?.any (Digits.isDigitOf base) = false := by
  cases sign with
  | none => rfl
  | plus => rfl
  | minus => rfl

theorem exponentChars_head (e : Option Exponent) :
    (exponentChars e).head?.any (Digits.isDigitOf 10) = false := by
  cases e with
  | none => rfl
  | some e =>
    change Digits.isDigitOf 10 e.mark = false
    rcases e.isMark with small | capital
    · rw [small]; rfl
    · rw [capital]; rfl

theorem fraction_head (m : Mantissa) (e : Option Exponent) :
    (m.fraction ++ exponentChars e).head?.any (Digits.isDigitOf 10) = false := by
  cases m with
  | whole _ _ => exact exponentChars_head e
  | point _ _ _ _ => rfl
  | bare _ _ => rfl

theorem no_pair {cs u v : List Char} {c d : Char} (short : cs.length ≤ 1) : cs ≠ u ++ c :: d :: v := by
  rintro rfl
  simp at short
  omega

theorem length_sign (sign : Sign) : sign.chars.length ≤ 1 := by
  cases sign <;> decide

variable {u v : List Char} {c d : Char}

theorem point_or_none (m : Mantissa) : m.fraction = [] ∧ m.places = [] ∨ m.fraction = '.' :: m.places := by
  cases m with
  | whole _ _ => exact Or.inl ⟨rfl, rfl⟩
  | point _ _ _ _ => exact Or.inr rfl
  | bare _ _ => exact Or.inr rfl

theorem places_of_pair {m : Mantissa} (same : m.fraction = u ++ c :: d :: v)
    (first : Digits.isDigitOf 10 c = true) (second : Digits.isDigitOf 10 d = true) :
    m.fraction = '.' :: m.places ∧ ∃ u', u = '.' :: u' ∧ m.places = u' ++ c :: d :: v := by
  rcases point_or_none m with ⟨none, _⟩ | point
  · simp [none] at same
  refine ⟨point, ?_⟩
  rw [point] at same
  rcases pair_append (a := ['.']) same first second (Or.inl rfl) with ⟨_, few⟩ | ⟨u', rfl, inRun⟩
  · exact absurd few (no_pair (Nat.le_refl 1))
  · exact ⟨u', rfl, inRun⟩

theorem exponent_of_pair {e : Option Exponent} (same : exponentChars e = u ++ c :: d :: v)
    (first : Digits.isDigitOf 10 c = true) (second : Digits.isDigitOf 10 d = true) :
    ∃ x u', e = some x ∧ u = x.mark :: x.sign.chars ++ u' ∧ x.digits = u' ++ c :: d :: v := by
  cases e with
  | none => simp [exponentChars] at same
  | some e =>
    have noDigit := exponentChars_head (some e)
    rcases pair_append (a := [e.mark]) same first second (Or.inl noDigit) with ⟨_, few⟩ | ⟨u, rfl, behindMark⟩
    · exact absurd few (no_pair (Nat.le_refl 1))
    rcases pair_append behindMark first second (Or.inl (not_digit_of_sign e.sign 10)) with
      ⟨_, few⟩ | ⟨u, rfl, inRun⟩
    · exact absurd few (no_pair (length_sign e.sign))
    · exact ⟨e, u, rfl, rfl, inRun⟩

theorem hasRun_of_pair {l : Literal} (chars : l.chars = u ++ c :: d :: v)
    (first : Digits.isDigitOf l.base c = true) (second : Digits.isDigitOf l.base d = true) :
    ∃ start ds ds' rest, l.HasRun start (ds ++ ds') rest ∧ ds ≠ [] ∧ ds' ≠ [] ∧
      u ++ [c] = start ++ ds ∧ d :: v = ds' ++ rest := by
  -- where a run is cut between the two digits, so is the literal
  have cut : ∀ {start run rest s t : List Char}, l.HasRun start run rest → run = s ++ c :: d :: t →
      u = start ++ s → ∃ start ds ds' rest, l.HasRun start (ds ++ ds') rest ∧ ds ≠ [] ∧ ds' ≠ [] ∧
        u ++ [c] = start ++ ds ∧ d :: v = ds' ++ rest := by
    intro start run rest s t here split place
    subst place split
    refine ⟨start, s ++ [c], d :: t, rest, by simpa using here, by simp, by simp, by simp, ?_⟩
    have whole := chars.symm.trans here.chars
    simpa using whole
  obtain ⟨sign, body⟩ := l
  rcases pair_append chars first second (Or.inl (not_digit_of_sign sign _)) with ⟨_, few⟩ | ⟨u, rfl, inBody⟩
  · exact absurd few (no_pair (length_sign sign))
  cases body with
  | marked mark base digits marks run =>
    have noDigit : (mark :: digits).head?.any (Digits.isDigitOf base) = false := not_digit_of_marks marks
    rcases pair_append (a := ['0']) inBody first second (Or.inr noDigit) with ⟨_, few⟩ | ⟨u, rfl, inMarked⟩
    · exact absurd few (no_pair (Nat.le_refl 1))
    rcases pair_append (a := [mark]) inMarked first second (Or.inl noDigit) with ⟨_, few⟩ | ⟨u, rfl, inRun⟩
    · exact absurd few (no_pair (Nat.le_refl 1))
    · exact cut (.marked sign marks run) inRun (by simp)
  | decimal m e =>
    have parts : m.digits ++ (m.fraction ++ exponentChars e) = u ++ c :: d :: v := by
      rw [← List.append_assoc]
      exact inBody
    rcases pair_append parts first second (Or.inr (fraction_head m e)) with ⟨_, inRun⟩ | ⟨u, rfl, behind⟩
    · exact cut (.digits sign m e) inRun rfl
    rcases pair_append behind first second (Or.inr (exponentChars_head e)) with ⟨_, inFraction⟩ | ⟨u, rfl, inExponent⟩
    · obtain ⟨point, u, rfl, inRun⟩ := places_of_pair inFraction first second
      exact cut (.places sign point e) inRun (by simp)
    · obtain ⟨e, u, rfl, rfl, inRun⟩ := exponent_of_pair inExponent first second
      exact cut (.exponent sign m e) inRun (by simp [Mantissa.chars])

end Neighbours

theorem not_separator_of_mem {c : Char} {cs : List Char} (mem : c ∈ withoutSeparators cs) : c ≠ '_' :=
  bne_iff_ne.mp (List.mem_filter.mp mem).2

def Between (base : Nat) (front back : List Char) : Prop :=
  front.getLast?.any (Digits.isDigitOf base) = true ∧ back.head?.any (Digits.isDigitOf base) = true

theorem betweenDigits_iff {l : Literal} {front back : List Char}
    (chars : l.chars = withoutSeparators (front ++ '_' :: back)) :
    l.BetweenDigits front back ↔ Between l.base front back := by
  constructor
  · rintro ⟨last, head, start, ds, ds', rest, here, some_, some_', left, right⟩
    have digit : ∀ c ∈ ds ++ ds', c ≠ '_' → Digits.isDigitOf l.base c = true :=
      fun c mem other => (here.mem c mem).resolve_right other
    have within : ds.getLast some_ ∈ withoutSeparators front :=
      left ▸ List.mem_append_right start (List.getLast_mem some_)
    have within' : ds'.head some_' ∈ withoutSeparators back :=
      right ▸ List.mem_append_left rest (List.head_mem some_')
    constructor
    · rw [← getLast?_withoutSeparators last, left, List.getLast?_append_of_ne_nil _ some_,
        List.getLast?_eq_some_getLast some_]
      exact digit _ (List.mem_append_left _ (List.getLast_mem some_)) (not_separator_of_mem within)
    · rw [← head?_withoutSeparators head, right, List.head?_append_of_ne_nil _ some_', List.head?_eq_some_head some_']
      exact digit _ (List.mem_append_right _ (List.head_mem some_')) (not_separator_of_mem within')
  · rintro ⟨last, head⟩
    rcases List.eq_nil_or_concat front with rfl | ⟨front, c, rfl⟩
    · cases last
    cases back with
    | nil => cases head
    | cons d back =>
      rw [List.concat_eq_append] at last chars ⊢
      have first : Digits.isDigitOf l.base c = true := by simpa using last
      have second : Digits.isDigitOf l.base d = true := head
      have other := not_separator_of_digit first
      have other' := not_separator_of_digit second
      have left : withoutSeparators (front ++ [c]) = withoutSeparators front ++ [c] := by
        rw [withoutSeparators_append, withoutSeparators_cons other]
        rfl
      have right : withoutSeparators ('_' :: d :: back) = d :: withoutSeparators back :=
        withoutSeparators_cons other' back
      rw [withoutSeparators_append, left, right, List.append_assoc, List.singleton_append] at chars
      obtain ⟨start, ds, ds', rest, here, some_, some_', left', right'⟩ := hasRun_of_pair chars first second
      exact ⟨by simpa using other, by simpa using other', start, ds, ds', rest, here, some_, some_',
        left.trans left', right.trans right'⟩

/-- The first separator without a digit of the base on each side, counted from 0. `after` tells whether a digit stands
before the text. -/
def misplaced? (base : Nat) (after : Bool) : List Char → Option Nat
  | [] => none
  | c :: cs =>
    if c = '_' && !(after && cs.head?.any (Digits.isDigitOf base)) then some 0
    else (misplaced? base (Digits.isDigitOf base c) cs).map (· + 1)

section Misplaced

variable {base : Nat} {after : Bool} {cs : List Char}

theorem misplaced?_cons {c : Char} (other : c ≠ '_') (cs : List Char) :
    misplaced? base after (c :: cs) = (misplaced? base (Digits.isDigitOf base c) cs).map (· + 1) := by
  rw [misplaced?, if_neg (by simp [other])]

theorem misplaced?_refused (bad : after = false ∨ cs.head?.any (Digits.isDigitOf base) = false) :
    misplaced? base after ('_' :: cs) = some 0 := by
  rw [misplaced?, if_pos]
  rcases bad with bad | bad <;> simp [bad]

theorem misplaced?_kept (next : cs.head?.any (Digits.isDigitOf base) = true) :
    misplaced? base true ('_' :: cs) = (misplaced? base false cs).map (· + 1) := by
  rw [misplaced?, if_neg (by simp [next])]
  rfl

theorem misplaced?_after (other : cs.head? ≠ some '_') (after after' : Bool) :
    misplaced? base after cs = misplaced? base after' cs := by
  cases cs with
  | nil => rfl
  | cons c cs =>
    have other : c ≠ '_' := by simpa using other
    rw [misplaced?_cons other, misplaced?_cons other]

theorem between_of_misplaced? {s : List Char}
    (fit : misplaced? base (s.getLast?.any (Digits.isDigitOf base)) cs = none) {front back : List Char}
    (split : cs = front ++ '_' :: back) : Between base (s ++ front) back := by
  induction cs generalizing s front with
  | nil => simp at split
  | cons c cs ih =>
    rw [misplaced?] at fit
    split at fit
    · cases fit
    · rename_i kept
      cases front with
      | nil =>
        cases split
        simpa [Between] using kept
      | cons c' front =>
        cases split
        have later := ih (s := s ++ [c]) (by simpa using fit) rfl
        simpa using later

theorem first_of_misplaced? {s : List Char} {i : Nat}
    (found : misplaced? base (s.getLast?.any (Digits.isDigitOf base)) cs = some i) :
    ∃ front back, cs = front ++ '_' :: back ∧ front.length = i ∧ ¬ Between base (s ++ front) back ∧
      ∀ f b, front = f ++ '_' :: b → Between base (s ++ f) (b ++ '_' :: back) := by
  induction cs generalizing s i with
  | nil => cases found
  | cons c cs ih =>
    rw [misplaced?] at found
    split at found
    · rename_i bad
      cases found
      simp only [Bool.and_eq_true, decide_eq_true_eq, Bool.not_eq_true'] at bad
      obtain ⟨rfl, bad⟩ := bad
      refine ⟨[], cs, rfl, rfl, ?_, ?_⟩
      · simpa [Between] using bad
      · rintro f b same
        simp at same
    · rename_i kept
      obtain ⟨j, later, rfl⟩ := Option.map_eq_some_iff.mp found
      obtain ⟨front, back, rfl, rfl, bad, good⟩ := ih (s := s ++ [c]) (by simpa using later)
      refine ⟨c :: front, back, rfl, rfl, by simpa using bad, fun f b same => ?_⟩
      cases f with
      | nil =>
        cases same
        simpa [Between] using kept
      | cons c' f =>
        cases same
        simpa using good f b rfl

end Misplaced

def Literal.FirstMisplaced (l : Literal) (front back : List Char) : Prop :=
  ¬ l.BetweenDigits front back ∧
    ∀ front' back', front = front' ++ '_' :: back' → l.BetweenDigits front' (back' ++ '_' :: back)

theorem separatorsFit_of_misplaced? {l : Literal} {cs : List Char} (chars : l.chars = withoutSeparators cs)
    (fit : misplaced? l.base false cs = none) : l.SeparatorsFit cs := by
  rintro front back rfl
  exact (betweenDigits_iff chars).mpr (between_of_misplaced? (s := []) fit rfl)

theorem firstMisplaced_of_misplaced? {l : Literal} {cs : List Char} (chars : l.chars = withoutSeparators cs)
    {i : Nat} (found : misplaced? l.base false cs = some i) :
    ∃ front back, cs = front ++ '_' :: back ∧ front.length = i ∧ l.FirstMisplaced front back := by
  obtain ⟨front, back, rfl, place, bad, good⟩ := first_of_misplaced? (s := []) found
  refine ⟨front, back, rfl, place, fun between => bad ((betweenDigits_iff chars).mp between), ?_⟩
  rintro front' back' rfl
  refine (betweenDigits_iff ?_).mpr (good front' back' rfl)
  rwa [List.append_assoc] at chars

end TemplateExpr.Numeral
