import TemplateExpr.Proofs.Numeral.Separators
/-!
Scanning a numeral with separators. Every part of the scanner either goes over its characters, with all separators in
place, to what it would have read without them, or it fails at the first separator that is not in its place. Only a
separator behind a point without digits is not seen where it is; the lemmas leave that text out.
-/
namespace TemplateExpr.Numeral

open Source Scan

/-- Over `cs` the scan comes to what `good` says, and the separators that it has passed are in place; or it fails at
the first separator that is not. -/
def Locates (base : Nat) (after : Bool) (scan : Scan α) (cs : List Char) (good : α → List Char → Prop) : Prop :=
  ∀ limit position,
    (∃ a w rest, cs = w ++ rest ∧
      scan (before limit position cs) = .ok a (before limit (position + w.length) rest) ∧
        misplaced? base after cs = (misplaced? base false rest).map (· + w.length) ∧ good a rest) ∨
    ∃ i fault t, misplaced? base after cs = some i ∧
      scan (before limit position cs) = .error (.badNumeral (position + i) fault) t

section Locating

variable {base : Nat} {after : Bool} {cs : List Char} {scan : Scan α} {good : α → List Char → Prop}

theorem locates_bind {f : α → Scan β} {good' : β → List Char → Prop} (first : Locates base after scan cs good)
    (second : ∀ a rest, good a rest → Locates base false (f a) rest good') :
    Locates base after (scan >>= f) cs good' := by
  intro limit position
  rcases first limit position with ⟨a, w, rest, rfl, done, split, holds⟩ | ⟨i, fault, t, found, failed⟩
  · rcases second a rest holds limit (position + w.length) with
      ⟨b, w', rest, rfl, done', split', holds'⟩ | ⟨i, fault, t, found, failed⟩
    · refine Or.inl ⟨b, w ++ w', rest, (List.append_assoc ..).symm, ?_, ?_, holds'⟩
      · rw [run_bind done, done', List.length_append, Nat.add_assoc]
      · rw [split, split', Option.map_map, List.length_append]
        congr 1
        funext i
        dsimp only [Function.comp]
        omega
    · refine Or.inr ⟨i + w.length, fault, t, ?_, ?_⟩
      · rw [split, found]
        rfl
      · rw [run_bind done, failed]
        congr 2
        omega
  · exact Or.inr ⟨i, fault, t, found, run_bind_error failed⟩

theorem locates_mono {good' : α → List Char → Prop} (h : Locates base after scan cs good)
    (weaker : ∀ a rest, good a rest → good' a rest) : Locates base after scan cs good' := by
  intro limit position
  rcases h limit position with ⟨a, w, rest, same, done, split, holds⟩ | failed
  · exact Or.inl ⟨a, w, rest, same, done, split, weaker a rest holds⟩
  · exact Or.inr failed

theorem locates_get {f : Source → Scan α}
    (h : ∀ limit position, Locates base after (f (before limit position cs)) cs good) :
    Locates base after (get >>= f) cs good :=
  fun limit position => h limit position limit position

theorem locates_after (start : cs.head? ≠ some '_') (after' : Bool) (h : Locates base after scan cs good) :
    Locates base after' scan cs good := by
  intro limit position
  rw [misplaced?_after start after' after]
  exact h limit position

theorem locates_nothing {a : α} (none : Reads scan [] a cs) (holds : good a cs) : Locates base false scan cs good := by
  intro limit position
  refine Or.inl ⟨a, [], cs, rfl, none limit position, ?_, holds⟩
  cases misplaced? base false cs <;> rfl

theorem locates_skip {a : α} {f : α → Scan β} {good' : β → List Char → Prop} (none : Reads scan [] a cs)
    (second : Locates base false (f a) cs good') : Locates base false (scan >>= f) cs good' := by
  have first : Locates base false scan cs fun b rest => b = a ∧ rest = cs := locates_nothing none ⟨rfl, rfl⟩
  refine locates_bind first ?_
  rintro _ _ ⟨rfl, rfl⟩
  exact second

theorem locates_one {a : α} {c : Char} {f : α → Scan β} {good' : β → List Char → Prop} (one : Reads scan [c] a cs)
    (other : c ≠ '_') (edge : Digits.isDigitOf base c = false ∨ cs.head? ≠ some '_')
    (second : Locates base false (f a) cs good') : Locates base false (scan >>= f) (c :: cs) good' := by
  have split : misplaced? base false (c :: cs) = (misplaced? base false cs).map (· + 1) := by
    rw [misplaced?_cons other]
    rcases edge with noDigit | start
    · rw [noDigit]
    · rw [misplaced?_after start _ false]
  have first : Locates base false scan (c :: cs) fun b rest => b = a ∧ rest = cs :=
    fun limit position => Or.inl ⟨a, [c], cs, rfl, one limit position, split, rfl, rfl⟩
  refine locates_bind first ?_
  rintro _ _ ⟨rfl, rfl⟩
  exact second

theorem locates_refusal (fails : ∀ limit position, ∃ fault t,
      scan (before limit position ('_' :: cs)) = .error (.badNumeral position fault) t) :
    Locates base false scan ('_' :: cs) good := by
  intro limit position
  obtain ⟨fault, t, failed⟩ := fails limit position
  exact Or.inr ⟨0, fault, t, misplaced?_refused (Or.inl rfl), failed⟩

end Locating

section Bare

variable {cs r : List Char}

theorem cons_of_bare {c : Char} (start : cs.head? ≠ some '_') (bare : withoutSeparators cs = c :: r) :
    ∃ rest, cs = c :: rest ∧ withoutSeparators rest = r := by
  cases cs with
  | nil => cases bare
  | cons c' rest =>
    have other : c' ≠ '_' := by simpa using start
    rw [withoutSeparators_cons other] at bare
    obtain ⟨same, behind⟩ := List.cons.inj bare
    exact ⟨rest, by rw [same], behind⟩

theorem nil_of_bare (start : cs.head? ≠ some '_') (bare : withoutSeparators cs = []) : cs = [] := by
  have head := head?_withoutSeparators start
  rw [bare] at head
  exact List.head?_eq_none_iff.mp head.symm

theorem separator_or_start (cs : List Char) : (∃ rest, cs = '_' :: rest) ∨ cs.head? ≠ some '_' := by
  cases cs with
  | nil => exact Or.inr (by simp)
  | cons c rest =>
    by_cases line : c = '_'
    · exact Or.inl ⟨rest, by rw [line]⟩
    · exact Or.inr (by simpa using line)

end Bare

section Runs

variable {base : Nat} {cs : List Char}

theorem start_of_digit (digit : cs.head?.any (Digits.isDigitOf base) = true) : cs.head? ≠ some '_' := by
  intro line
  rw [line] at digit
  cases digit

theorem misplaced?_going {c : Char} (going : Digits.isDigitOf base c = true ∨ c = '_')
    (kept : c = '_' → cs.head?.any (Digits.isDigitOf base) = true) :
    misplaced? base true (c :: cs) = (misplaced? base true cs).map (· + 1) := by
  by_cases line : c = '_'
  · have next := kept line
    rw [line, misplaced?_kept next, misplaced?_after (start_of_digit next) false true]
  · rw [misplaced?_cons line, going.resolve_right line]

theorem locates_run_going (cs : List Char) :
    Locates base true (run base) cs fun w rest =>
      cs = w ++ rest ∧ RunEnds base rest ∧ ∀ c ∈ w, Digits.isDigitOf base c = true ∨ c = '_' := by
  induction cs with
  | nil =>
    refine fun limit position => Or.inl ⟨[], [], [], rfl, repeatWhile_stop rfl, rfl, rfl, rfl, ?_⟩
    rintro c ⟨⟩
  | cons c cs ih =>
    intro limit position
    by_cases going : Digits.isDigitOf base c = true ∨ c = '_'
    · have more : inRun base (before limit position (c :: cs)) = true := by
        simpa [inRun] using going
      by_cases bad : c = '_' ∧ cs.head?.any (Digits.isDigitOf base) = false
      · obtain ⟨rfl, noDigit⟩ := bad
        exact Or.inr ⟨0, _, _, misplaced?_refused (Or.inr noDigit),
          repeatWhile_error more (runStep_separator limit position noDigit)⟩
      · have kept : c = '_' → cs.head?.any (Digits.isDigitOf base) = true := by simpa using bad
        have split := misplaced?_going going kept
        have first := runStep_before limit position kept
        rcases ih limit (position + 1) with
          ⟨w, w', rest, same, done, split', same', ends, digits⟩ | ⟨i, fault, t, found, failed⟩
        · obtain rfl := List.append_cancel_right (same.symm.trans same')
          refine Or.inl ⟨c :: w', c :: w', rest, congrArg (c :: ·) same, ?_, ?_, congrArg (c :: ·) same, ends, ?_⟩
          · rw [List.length_cons, Nat.add_comm w'.length, ← Nat.add_assoc]
            exact repeatWhile_step more first done
          · rw [split, split', Option.map_map]
            rfl
          · intro d mem
            rcases List.mem_cons.mp mem with rfl | mem
            · exact going
            · exact digits d mem
        · refine Or.inr ⟨i + 1, fault, t, by rw [split, found]; rfl, ?_⟩
          rw [Nat.add_comm i, ← Nat.add_assoc]
          exact repeatWhile_later_error more first failed
    · have ends : RunEnds base (c :: cs) := by
        simpa [RunEnds] using going
      refine locates_after (start_of_runEnds ends) true (locates_nothing (a := []) ?_ ⟨rfl, ends, ?_⟩) limit position
      · exact fun limit position => repeatWhile_stop ends
      · rintro c ⟨⟩

theorem any_withoutSeparators (start : cs.head? ≠ some '_') (p : Char → Bool) :
    (withoutSeparators cs).head?.any p = cs.head?.any p := by
  rw [head?_withoutSeparators start]

variable {ds r : List Char}

theorem locates_run (digits : ∀ d ∈ ds, Digits.isDigitOf base d = true)
    (ends : r.head?.any (Digits.isDigitOf base) = false) (bare : withoutSeparators cs = ds ++ r)
    (start : cs.head? ≠ some '_') :
    Locates base false (run base) cs fun w rest =>
      cs = w ++ rest ∧ withoutSeparators w = ds ∧ withoutSeparators rest = r ∧ rest.head? ≠ some '_' := by
  refine locates_mono (locates_after start false (locates_run_going cs)) ?_
  rintro w rest ⟨rfl, stop, within⟩
  have start' := start_of_runEnds stop
  have wDigits : ∀ d ∈ withoutSeparators w, Digits.isDigitOf base d = true := by
    intro d mem
    exact (within d (List.mem_of_mem_filter mem)).resolve_right (not_separator_of_mem mem)
  have restEnds : (withoutSeparators rest).head?.any (Digits.isDigitOf base) = false := by
    rw [any_withoutSeparators start']
    exact no_digit_of_runEnds stop
  rw [withoutSeparators_append] at bare
  obtain ⟨front, back⟩ := span_append wDigits restEnds
  obtain ⟨front', back'⟩ := span_append digits ends
  rw [bare] at front back
  exact ⟨rfl, front.symm.trans front', back.symm.trans back', start'⟩

theorem locates_optionalRun (digits : ∀ d ∈ ds, d.isDigit = true)
    (ends : r.head?.any Char.isDigit = false) (bare : withoutSeparators cs = ds ++ r)
    (start : cs.head? ≠ some '_') :
    Locates 10 false optionalRun cs fun w rest =>
      cs = w ++ rest ∧ withoutSeparators w = ds ∧ withoutSeparators rest = r ∧ rest.head? ≠ some '_' := by
  have head : cs.head?.any Char.isDigit = (ds ++ r).head?.any Char.isDigit := by
    rw [← any_withoutSeparators start, bare]
  by_cases some_ : ds = []
  · subst some_
    exact locates_nothing (reads_optionalRun_none (head.trans ends)) ⟨rfl, rfl, bare, start⟩
  · refine locates_get fun limit position => ?_
    rw [if_pos]
    · rw [← funext Digits.isDigitOf_ten] at ends
      exact locates_run (fun d mem => (Digits.isDigitOf_ten d).trans (digits d mem)) ends bare start
    · rw [current_before, head, List.head?_append_of_ne_nil _ some_, List.head?_eq_some_head some_]
      exact digits _ (List.head_mem some_)

end Runs

section Parts

variable {cs : List Char}

theorem locates_places {places r : List Char} (digits : ∀ d ∈ places, d.isDigit = true)
    (ends : r.head?.any Char.isDigit = false) (bare : withoutSeparators cs = '.' :: places ++ r)
    (start : cs.head? ≠ some '_') :
    Locates 10 false (do
        let point ← Source.read
        if (← get).current = some '_' then unexpected
        return point.toList ++ (← optionalRun)) cs fun w rest =>
      (∃ w', w = '.' :: w' ∧ withoutSeparators w' = places) ∧ withoutSeparators rest = r ∧ rest.head? ≠ some '_' := by
  obtain ⟨cs, rfl, behind⟩ := cons_of_bare start bare
  refine locates_one (reads_read '.' cs) (by decide) (Or.inl rfl) ?_
  rcases separator_or_start cs with ⟨cs, rfl⟩ | start
  · exact locates_refusal fun limit position => ⟨_, _, rfl⟩
  · refine locates_get fun limit position => ?_
    dsimp only
    rw [if_neg (by simpa using start)]
    refine locates_bind (locates_optionalRun digits ends behind start) ?_
    rintro w rest ⟨-, wBare, restBare, start⟩
    exact locates_nothing (reads_pure _ rest) ⟨⟨w, rfl, wBare⟩, restBare, start⟩

theorem locates_fraction {m : Mantissa} {whole r : List Char} (digits : ∀ d ∈ m.places, d.isDigit = true)
    (ends : r.head?.any Char.isDigit = false) (point : r.head? ≠ some '.')
    (wholeBare : withoutSeparators whole = m.digits) (bare : withoutSeparators cs = m.fraction ++ r)
    (start : cs.head? ≠ some '_') (seen : whole = [] → ∀ rest, cs ≠ '.' :: '_' :: rest) :
    Locates 10 false (fraction whole) cs fun w rest =>
      withoutSeparators (w.drop 1) = m.places ∧ (w = [] ↔ m.fraction = []) ∧
        withoutSeparators rest = r ∧ rest.head? ≠ some '_' := by
  refine locates_get fun limit position => ?_
  have head : cs.head? = (m.fraction ++ r).head? := by
    rw [← head?_withoutSeparators start, bare]
  rcases point_or_none m with ⟨noPoint, noPlaces⟩ | hasPoint
  · rw [noPoint, List.nil_append] at head bare
    rw [if_neg (by simp [head, point])]
    exact locates_nothing (reads_pure [] cs) ⟨noPlaces.symm, by simp [noPoint], bare, start⟩
  · rw [hasPoint, List.cons_append] at bare
    obtain ⟨cs, rfl, behind⟩ := cons_of_bare start bare
    have digit : whole ≠ [] ∨ cs.head?.any Char.isDigit = true := by
      by_cases none : whole = []
      · subst none
        -- nothing stands before the point, so a digit has to follow it
        have places : m.places ≠ [] := by
          intro noPlaces
          exact mantissa_nonempty m ⟨wholeBare.symm, by rw [noPlaces]; rfl⟩
        have start' : cs.head? ≠ some '_' := by
          intro line
          obtain ⟨rest, rfl⟩ : ∃ rest, cs = '_' :: rest := List.head?_eq_some_iff.mp line
          exact seen rfl rest rfl
        right
        rw [← any_withoutSeparators start', behind, List.head?_append_of_ne_nil _ places,
          List.head?_eq_some_head places]
        exact digits _ (List.head_mem places)
      · exact Or.inl none
    rw [if_pos (by simpa using digit)]
    refine locates_mono (locates_places digits ends bare start) ?_
    rintro _ rest ⟨⟨w, rfl, wBare⟩, later⟩
    exact ⟨wBare, by simp [hasPoint], later⟩

theorem sign_head {sign : Sign} (some_ : sign ≠ .none) : ∃ c, sign.chars = [c] ∧ isSign c = true ∧ c ≠ '_' := by
  cases sign with
  | none => exact absurd rfl some_
  | plus => exact ⟨'+', rfl, rfl, by decide⟩
  | minus => exact ⟨'-', rfl, rfl, by decide⟩

theorem locates_sign {base : Nat} {sign : Sign} {body : List Char} {f : List Char → Scan α}
    {good : α → List Char → Prop} (bare : withoutSeparators cs = sign.chars ++ body)
    (head : body.head?.any isSign = false)
    (refuses : ∀ s rest limit position, ∃ fault t,
      f s (before limit position ('_' :: rest)) = .error (.badNumeral position fault) t)
    (second : ∀ rest, cs = sign.chars ++ rest → rest.head? ≠ some '_' → withoutSeparators rest = body →
      Locates base false (f sign.chars) rest good) :
    Locates base false (takeIf isSign >>= f) cs good := by
  rcases separator_or_start cs with ⟨rest, rfl⟩ | start
  · exact locates_skip (reads_takeIf_miss rfl) (locates_refusal (refuses [] rest))
  · by_cases none : sign = .none
    · subst none
      refine locates_skip (reads_takeIf_miss ?_) (second cs rfl start bare)
      rw [← any_withoutSeparators start, bare]
      exact head
    · obtain ⟨c, chars, isMark, other⟩ := sign_head none
      rw [chars] at bare second
      obtain ⟨rest, rfl, behind⟩ := cons_of_bare start bare
      have noDigit : Digits.isDigitOf base c = false := by
        by_contra digit
        rw [not_isSign_of_isDigitOf (Bool.eq_true_of_not_eq_false digit)] at isMark
        cases isMark
      refine locates_one (reads_takeIf_hit isMark rest) other (Or.inl noDigit) ?_
      rcases separator_or_start rest with ⟨rest, rfl⟩ | start
      · exact locates_refusal (refuses [c] rest)
      · exact second rest rfl start behind

theorem locates_exponent {e : Option Exponent} (digits : ∀ x ∈ e, ∀ c ∈ x.digits, c.isDigit = true)
    (fits : ExponentFits e) (bare : withoutSeparators cs = exponentChars e) (start : cs.head? ≠ some '_') :
    Locates 10 false exponent cs fun p rest =>
      rest = [] ∧ p.2 = exponentPower e ∧ (p.1 = [] ↔ exponentChars e = []) := by
  cases e with
  | none =>
    obtain rfl := nil_of_bare start bare
    exact locates_nothing (reads_exponent (e := none) fits ends_nil) ⟨rfl, rfl, by simp [exponentChars]⟩
  | some e =>
    have mark := isMark_exponent e
    have noDigit := exponentChars_head (some e)
    have other : e.mark ≠ '_' := by
      intro line
      rw [line] at mark
      cases mark
    have first := run_first e.run
    rw [funext Digits.isDigitOf_ten] at first
    obtain ⟨cs, rfl, behind⟩ := cons_of_bare start bare
    refine locates_one (reads_takeIf_hit mark cs) other (Or.inl noDigit) ?_
    rw [if_neg (List.cons_ne_nil _ _)]
    refine locates_sign behind (noSign_of_run e.run) (fun s rest limit position => ⟨_, _, rfl⟩) ?_
    rintro rest - start bare
    refine locates_get fun limit position => ?_
    dsimp only
    rw [if_pos (by rw [current_before, ← any_withoutSeparators start, bare, first])]
    have number : Digits.signed? 64 e.digits = some (spelled 10 e.digits : Int) := by
      have run := isRun_withoutSeparators e.run
      rw [withoutSeparators_of_digits (digits e rfl)] at run
      rw [signed?_isRun run, ← spelled_of_isRun run, if_pos (fits e rfl)]
    have digits := fun d mem => (Digits.isDigitOf_ten d).trans (digits e rfl d mem)
    refine locates_bind (locates_run digits rfl (bare.trans (List.append_nil _).symm) start) ?_
    rintro w rest ⟨-, wBare, restBare, start⟩
    obtain rfl := nil_of_bare start restBare
    rw [wBare, number]
    refine locates_nothing (reads_pure _ []) ⟨rfl, sign_apply e.sign _, ?_⟩
    simp [exponentChars, Exponent.chars]

theorem locates_unmarked {sign : Sign} {m : Mantissa} {e : Option Exponent} {d : Decimal} (plain : Bare m e)
    (value : Yields ⟨sign, .decimal m e⟩ d) (bare : withoutSeparators cs = (Body.decimal m e).chars)
    (start : cs.head? ≠ some '_') (seen : ∀ rest, cs ≠ '.' :: '_' :: rest) :
    Locates 10 false (unmarked sign.chars) cs fun n rest =>
      rest = [] ∧ n.value = d ∧ n.plain = Literal.plain ⟨sign, .decimal m e⟩ := by
  obtain ⟨fits, scale, value⟩ := value
  obtain ⟨_, noPoint⟩ := exponent_ends e ends_nil
  rw [List.append_nil] at noPoint
  have ends := exponentChars_head e
  have ends' := fraction_head m e
  rw [funext Digits.isDigitOf_ten] at ends ends'
  have digits := fun d mem => plain.1 d (List.mem_append_left m.places mem)
  have places := fun d mem => plain.1 d (List.mem_append_right m.digits mem)
  have parts : withoutSeparators cs = m.digits ++ (m.fraction ++ exponentChars e) := by
    rw [bare, Body.chars, Mantissa.chars, List.append_assoc]
  have number : Decimal.ofDigits? (sign.chars = ['-']) m.digits m.places (exponentPower e) = some d := by
    have result := ofDigits?_eq_some_iff.mpr ⟨scale, value⟩
    rwa [withoutSeparators_of_digits digits, withoutSeparators_of_digits places] at result
  refine locates_bind (locates_optionalRun digits ends' parts start) ?_
  rintro whole rest ⟨rfl, wholeBare, restBare, start⟩
  have seen : whole = [] → ∀ rest', rest ≠ '.' :: '_' :: rest' := by
    rintro rfl
    exact seen
  refine locates_bind (locates_fraction places ends noPoint wholeBare restBare start seen) ?_
  rintro fraction rest ⟨placesBare, noFraction, restBare, start⟩
  have some_ : ¬ (whole = [] ∧ m.places = []) := by
    rintro ⟨rfl, none⟩
    exact mantissa_nonempty m ⟨wholeBare.symm, by rw [none]; rfl⟩
  dsimp only
  rw [placesBare, if_neg (by simpa using some_)]
  refine locates_bind (locates_exponent plain.2 fits restBare start) ?_
  rintro ⟨written, power⟩ rest ⟨rfl, rfl, noExponent⟩
  dsimp only at noExponent ⊢
  rw [wholeBare, number]
  refine locates_nothing (reads_pure _ []) ⟨rfl, rfl, ?_⟩
  simp only [Literal.plain, noFraction, noExponent]

end Parts

section Scan

variable {cs : List Char}

theorem locates_marked {sign : Sign} {mark : Char} {base : Nat} {ds : List Char} (marks : Marks mark base)
    (run : Run base ds) (bare : withoutSeparators cs = ds) :
    Locates base false (marked sign.chars base) ('0' :: mark :: cs) fun n rest =>
      rest = [] ∧ n.value = Decimal.ofInt (sign.apply (spelled base ds)) ∧ n.plain = false := by
  have other : mark ≠ '_' := by
    rintro rfl
    cases marks
  refine locates_one (reads_read '0' _) (by decide) (Or.inr (by simpa using other)) ?_
  refine locates_one (reads_read mark cs) other (Or.inl (not_digit_of_marks marks)) ?_
  rcases separator_or_start cs with ⟨cs, rfl⟩ | start
  · exact locates_refusal fun limit position => ⟨_, _, rfl⟩
  · refine locates_get fun limit position => ?_
    have first : cs.head?.any (Digits.isDigitOf base) = true := by
      rw [← any_withoutSeparators start, bare]
      exact run_first run
    have digits : ∀ d ∈ ds, Digits.isDigitOf base d = true := by
      intro d mem
      exact (mem_run run d mem).resolve_right (not_separator_of_mem (bare ▸ mem))
    have joined : withoutSeparators ds = ds := by
      rw [← bare, withoutSeparators_idem]
    dsimp only
    rw [if_pos (by rw [current_before, first])]
    refine locates_bind (locates_run digits rfl (bare.trans (List.append_nil _).symm) start) ?_
    rintro w rest ⟨-, wBare, restBare, start⟩
    obtain rfl := nil_of_bare start restBare
    rw [wBare, Digits.valueIn_eq_foldl, sign_apply]
    refine locates_nothing (reads_pure _ []) ⟨rfl, ?_, rfl⟩
    rw [spelled, joined]

theorem locates_split_mark {sign : Sign} {mark : Char} {base : Nat} {ds : List Char}
    {good : Numeral → List Char → Prop} (marks : Marks mark base) (bare : withoutSeparators cs = mark :: ds) :
    Locates base false (unmarked sign.chars) ('0' :: '_' :: cs) good := by
  have noDigit : cs.head?.any (Digits.isDigitOf base) = false ∧ cs.head?.any (Digits.isDigitOf 10) = false := by
    rcases separator_or_start cs with ⟨cs, rfl⟩ | start
    · exact ⟨rfl, rfl⟩
    · obtain ⟨cs, rfl, _⟩ := cons_of_bare start bare
      cases marks <;> exact ⟨rfl, rfl⟩
  have found : misplaced? base false ('0' :: '_' :: cs) = some 1 := by
    rw [misplaced?_cons (by decide), misplaced?_refused (Or.inr noDigit.1)]
    rfl
  intro limit position
  have failed : optionalRun (before limit position ('0' :: '_' :: cs)) =
      .error (.badNumeral (position + 1) (.unexpectedChar '_')) (before limit (position + 1) ('_' :: cs)) :=
    repeatWhile_later_error rfl (runStep_before limit position fun line => absurd line (by decide))
      (repeatWhile_error rfl (runStep_separator limit (position + 1) noDigit.2))
  exact Or.inr ⟨1, _, _, found, run_bind_error failed⟩

theorem bare_of_chars {m : Mantissa} {e : Option Exponent} (chars : withoutSeparators cs = (Body.decimal m e).chars) :
    Bare m e := by
  have digit {ds : List Char} (run : ds = [] ∨ Run 10 ds) (sub : ds ⊆ withoutSeparators cs) :
      ∀ c ∈ ds, c.isDigit = true := by
    intro c mem
    rcases run with rfl | run
    · cases mem
    · rw [← Digits.isDigitOf_ten]
      exact (mem_run run c mem).resolve_right (not_separator_of_mem (sub mem))
  rw [chars] at digit
  constructor
  · intro c mem
    rcases List.mem_append.mp mem with mem | mem
    · exact digit (run_digits m) (fun c mem => by simp [Body.chars, Mantissa.chars, mem]) c mem
    · refine digit (run_places m) (fun c mem => ?_) c mem
      rw [← drop_fraction] at mem
      simp [Body.chars, Mantissa.chars, List.mem_of_mem_drop mem]
  · rintro x ⟨⟩ c mem
    exact digit (Or.inr x.run) (fun c mem => by simp [Body.chars, exponentChars, Exponent.chars, mem]) c mem

theorem announcedBase?_of_decimal {limit position : Nat} (chars : ∀ c ∈ cs, IsDecimalChar c) :
    announcedBase? (before limit position cs) = none := by
  unfold announcedBase?
  split
  · rw [next_before]
    cases second : cs.tail.head? with
    | none => rfl
    | some c =>
      have decimal := chars c (List.mem_of_mem_tail (List.mem_of_head? second))
      refine Option.eq_none_iff_forall_ne_some.mpr fun base found => ?_
      exact not_marks_of_isDecimalChar decimal base (base?_eq_some_iff.mp found)
  · rfl

theorem locates_scan {l : Literal} {d : Decimal} (value : Yields l d) (bare : l.chars = withoutSeparators cs)
    (seen : ∀ (sign : Sign) (rest : List Char), cs ≠ sign.chars ++ '.' :: '_' :: rest) :
    Locates l.base false scan cs fun n rest => rest = [] ∧ n.value = d ∧ n.plain = l.plain := by
  obtain ⟨sign, body⟩ := l
  have head : body.chars.head?.any isSign = false := by
    obtain ⟨c, more, same, other⟩ := body_head body []
    rw [List.append_nil] at same
    rw [same]
    exact other
  refine locates_sign bare.symm head (fun s rest limit position => ⟨_, _, rfl⟩) ?_
  rintro rest split start restBare
  refine locates_get fun limit position => ?_
  cases body with
  | decimal m e =>
    have decimal : ∀ c ∈ rest, IsDecimalChar c := by
      intro c mem
      by_cases line : c = '_'
      · exact Or.inr (Or.inl line)
      · exact isDecimalChar_of_body m e c (restBare ▸ List.mem_filter.mpr ⟨mem, by simpa using line⟩)
    rw [announcedBase?_of_decimal decimal]
    refine locates_unmarked (bare_of_chars restBare) value restBare start ?_
    rintro rest' rfl
    exact seen sign rest' split
  | marked mark base digits marks run =>
    obtain ⟨rest, rfl, behindZero⟩ := cons_of_bare start restBare
    rcases separator_or_start rest with ⟨rest, rfl⟩ | start
    · exact locates_split_mark marks behindZero
    · obtain ⟨rest, rfl, behindMark⟩ := cons_of_bare start behindZero
      have announced : announcedBase? (before limit position ('0' :: mark :: rest)) = some base :=
        base?_eq_some_iff.mpr marks
      rw [announced]
      cases value
      exact locates_marked marks run behindMark

end Scan

end TemplateExpr.Numeral
