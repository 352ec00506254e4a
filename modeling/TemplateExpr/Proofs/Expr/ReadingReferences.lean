import TemplateExpr.Proofs.Expr.Reading
/-!
Calls and variables that are written are read. The suffixes of a variable come in a fixed order. Each one may
be left out, and what follows a suffix begins with a token of a later one, so every token among them is taken
for the suffix that it was written for: behind a bound a caret changes the case, a minus begins the value of
a variable that is not defined.
-/
namespace TemplateExpr

open Token Source

/-- The place that a token has among the suffixes of a variable, and the brace behind them. -/
def Token.suffix? : Token → Option Nat
  | .symbol .colon => some 0
  | .symbol .caret | .symbol .doubleCaret | .symbol .comma | .symbol .doubleComma | .symbol .tilde
  | .symbol .doubleTilde => some 1
  | .symbol .hash => some 2
  | .symbol .minus => some 3
  | .symbol .closeBrace => some 4
  | _ => none

theorem suffix?_of_ofToken? {token : Token} {t : CaseTransform} (h : CaseTransform.ofToken? token = some t) :
    token.suffix? = some 1 := by
  unfold CaseTransform.ofToken? at h
  split at h <;> first | rfl | cases h

theorem Token.ends_suffix {token : Token} {m : Nat} (h : token.suffix? = some m) : Ends 3 token := by
  constructor
  · rintro rfl
    cases h
  · intro l same
    unfold Token.suffix? at h
    split at h <;> first | cases same; decide | cases same | cases h

/-- What comes begins with a suffix that has the place or a later one. -/
def Suffixed (n : Nat) (rest : List Char) : Prop :=
  Parted rest ∧ ∃ token m, Meets rest token ∧ token.suffix? = some m ∧ n ≤ m

theorem suffixed_mono {m n : Nat} {rest : List Char} (suffixed : Suffixed n rest) (less : m ≤ n) :
    Suffixed m rest := by
  obtain ⟨parted, token, place, meets, found, later⟩ := suffixed
  exact ⟨parted, token, place, meets, found, Nat.le_trans less later⟩

theorem suffixed_gap {g w rest : List Char} {token : Token} {m : Nat} (gap : Gap g)
    (takes : Takes token w rest) (found : token.suffix? = some m) : Suffixed m (g ++ (w ++ rest)) :=
  ⟨parted_gap gap _, token, m, meets_trivia gap.trivia (meets_takes takes), found, Nat.le_refl m⟩

theorem takes_transform {token : Token} {t : CaseTransform} {s rest : List Char} (spelled : Spelled token s)
    (suffix : CaseTransform.ofToken? token = some t) (parted : Parted rest) : Takes token s rest := by
  refine takes_other spelled parted ?_
  rintro rfl
  cases suffix

theorem suffixed_transforms {ts : List CaseTransform} {w rest : List Char} (written : WrittenTransforms ts w)
    (suffixed : Suffixed 2 rest) : Suffixed 1 (w ++ rest) := by
  induction written with
  | nil => exact suffixed_mono suffixed (by decide)
  | cons gap spelled suffix _ ih =>
    have takes := takes_transform spelled suffix ih.1
    rw [List.append_assoc, List.append_assoc]
    exact suffixed_gap gap takes (suffix?_of_ofToken? suffix)

theorem suffixed_length {length : Bool} {w rest : List Char} (written : WrittenLength length w)
    (suffixed : Suffixed 3 rest) (noComment : length = true → rest.head? ≠ some '#') :
    Suffixed 2 (w ++ rest) := by
  cases written with
  | no => exact suffixed_mono suffixed (by decide)
  | yes gap =>
    have takes : Takes (.symbol .hash) ['#'] rest :=
      takes_spelled (.single rfl) suffixed.1 fun _ => noComment rfl
    rw [List.append_assoc]
    exact suffixed_gap gap takes rfl

section

variable {tight : Prop} {allow : String → Nat → Except Error Unit} {i : Nat} {w rest : List Char}

theorem suffixed_fallback {e : Option Expr} (written : Written tight allow (.fallback e) i w)
    (suffixed : Suffixed 4 rest) : Suffixed 3 (w ++ rest) := by
  cases written with
  | noFallback => exact suffixed_mono suffixed (by decide)
  | @fallback e _ g₁ g₂ w gap₁ gap₂ inner =>
    rw [List.append_assoc, List.cons_append, List.append_assoc]
    exact suffixed_gap (w := ['-']) gap₁ (Parser.takes_minus gap₂ _) rfl

theorem suffixed_slice {s : Option (Slice Expr)} (written : Written tight allow (.slice s) i w)
    (suffixed : Suffixed 1 rest) : Suffixed 0 (w ++ rest) := by
  cases written with
  | noSlice => exact suffixed_mono suffixed (by decide)
  | start gap₁ gap₂ bound =>
    rw [List.append_assoc, List.cons_append, List.append_assoc]
    exact suffixed_gap (w := [':']) gap₁ (Parser.takes_colon gap₂ _) rfl
  | range gap₁ gap₂ first gap₃ gap₄ second =>
    rw [List.append_assoc, List.cons_append, List.append_assoc]
    exact suffixed_gap (w := [':']) gap₁ (Parser.takes_colon gap₂ _) rfl

end

namespace Parser

variable {limit i : Nat} {tight : Prop} {allow : String → Nat → Except Error Unit} {w g₁ g₂ : List Char}

theorem transforms_written {ts : List CaseTransform} (written : WrittenTransforms ts w) {depth : Nat}
    {p : Parser} {rest : List Char} (room : w.length + 1 ≤ depth) (suffixed : Suffixed 2 rest)
    (stands : Stands limit p i (w ++ rest)) :
    ∃ q, transforms depth p = .ok ts q ∧ Stands limit q (i + w.length) rest := by
  induction written generalizing depth p i with
  | nil =>
    obtain ⟨d, rfl, _⟩ : ∃ d, depth = d + 1 ∧ 0 ≤ d := depth_succ room
    obtain ⟨_, token, m, meets, found, later⟩ := suffixed
    have none : CaseTransform.ofToken? token = none := by
      cases suffix : CaseTransform.ofToken? token with
      | none => rfl
      | some t =>
        cases (suffix?_of_ofToken? suffix).symm.trans found
        exact absurd later (by decide)
    obtain ⟨t, q, looked, same, stands⟩ := peek_meets stands meets
    refine ⟨q, ?_, stands⟩
    rw [transforms, run_bind looked, same, none]
    rfl
  | @cons t ts token g s w gap spelled suffix more ih =>
    have some₁ := List.length_pos_of_ne_nil gap.nonempty
    simp only [List.append_assoc, List.length_append] at stands room
    have takes := takes_transform spelled suffix (suffixed_transforms more suffixed).1
    obtain ⟨d, rfl, fits⟩ : ∃ d, depth = d + 1 ∧ w.length + 1 ≤ d := depth_succ (by omega)
    obtain ⟨t', q, looked, same, stands⟩ := peek_meets (stands_trivia gap.trivia stands) (meets_takes takes)
    obtain ⟨q, read, fresh⟩ := advance_takes stands takes
    obtain ⟨q, done, stands⟩ := ih fits (stands_of_fresh fresh)
    refine ⟨q, ?_, stands_at stands ?_⟩
    · rw [transforms, run_bind looked, same, suffix]
      dsimp only
      rw [run_bind read, run_bind done]
      rfl
    · simp only [List.length_append]
      omega

theorem eat_length {length : Bool} (written : WrittenLength length w) {p : Parser} {rest : List Char}
    (suffixed : Suffixed 3 rest) (noComment : length = true → rest.head? ≠ some '#')
    (stands : Stands limit p i (w ++ rest)) :
    ∃ q, eat .hash p = .ok length q ∧ Stands limit q (i + w.length) rest := by
  cases written with
  | no =>
    obtain ⟨_, token, m, meets, found, later⟩ := suffixed
    refine eat_meets stands meets ?_
    rintro rfl
    cases found
    exact absurd later (by decide)
  | @yes g gap =>
    have takes : Takes (.symbol .hash) ['#'] rest :=
      takes_spelled (.single rfl) suffixed.1 fun _ => noComment rfl
    rw [List.append_assoc] at stands
    obtain ⟨q, ate, fresh⟩ := eat_takes (stands_trivia gap.trivia stands) takes
    refine ⟨q, ate, stands_at (stands_of_fresh fresh) ?_⟩
    rw [List.length_append, Nat.add_assoc]

theorem reads_bound {e : Expr} {token : Token} (inner : Reads limit allow (.level .multiplicative e) i w)
    (front : Fronted w token) :
    ReadsOpen limit (Parser.bound allow) ⟨e, i⟩ 6 (Token.Ends 3) i w := by
  intro depth p rest last room parted meets ends stands
  obtain ⟨d, rfl, fits⟩ : ∃ d, depth = d + 1 ∧ 16 * w.length + 5 ≤ d := depth_succ room
  obtain ⟨t, s, next, _, place⟩ := front limit i rest parted
  have looked := peek_of_stands stands next
  obtain ⟨q, done, stands⟩ := readsOpen_binary inner d ⟨s, some t, p.pool⟩ rest last fits parted meets ends
    next.symm
  refine ⟨q, ?_, stands⟩
  rw [Parser.bound, run_bind looked, run_bind done, place]
  rfl

theorem reads_noSlice : Reads limit allow (.slice none) i [] := by
  intro depth p rest token room parted meets follows stands
  obtain ⟨d, rfl⟩ := Nat.exists_eq_add_one.mpr (show 0 < depth by omega)
  obtain ⟨q, ate, stands⟩ := eat_meets stands meets follows.2
  refine ⟨q, ?_, stands⟩
  rw [Parser.slice, run_bind ate]
  rfl

theorem reads_start {e : Expr} {token : Token} (gap₁ : Gap g₁) (gap₂ : Gap g₂)
    (bound : Reads limit allow (.level .multiplicative e) (i + g₁.length + 1 + g₂.length) w)
    (front : Fronted w token) :
    Reads limit allow (.slice (some ⟨⟨e, i + g₁.length + 1 + g₂.length⟩, none⟩)) i
      (g₁ ++ (':' :: (g₂ ++ w))) := by
  intro depth p rest last room parted meets follows stands
  simp only [List.append_assoc, List.cons_append, List.length_append, List.length_cons] at stands room
  obtain ⟨d, rfl, fits⟩ : ∃ d, depth = d + 1 ∧ 16 * w.length + 6 ≤ d := depth_succ (by omega)
  obtain ⟨q, opened, fresh⟩ := eat_takes (w := [':']) (stands_trivia gap₁.trivia stands)
    (takes_colon gap₂ _)
  obtain ⟨q, done, stands⟩ := reads_bound bound front d q rest last fits parted meets follows.1
    (stands_trivia gap₂.trivia (stands_of_fresh fresh))
  obtain ⟨q, alone, stands⟩ := eat_meets stands meets follows.2
  refine ⟨q, ?_, stands_at stands ?_⟩
  · rw [Parser.slice, run_bind opened]
    simp only [if_true]
    rw [run_bind done, run_bind alone]
    rfl
  · simp only [List.length_append, List.length_cons]
    omega

theorem reads_range {e f : Expr} {token token' : Token} {g₃ g₄ v : List Char} (gap₁ : Gap g₁)
    (gap₂ : Gap g₂)
    (first : Reads limit allow (.level .multiplicative e) (i + g₁.length + 1 + g₂.length) w)
    (front : Fronted w token) (gap₃ : Gap g₃) (gap₄ : Gap g₄)
    (second : Reads limit allow (.level .multiplicative f)
      (i + g₁.length + 1 + g₂.length + w.length + g₃.length + 1 + g₄.length) v)
    (front' : Fronted v token') :
    Reads limit allow (.slice (some ⟨⟨e, i + g₁.length + 1 + g₂.length⟩,
      some ⟨f, i + g₁.length + 1 + g₂.length + w.length + g₃.length + 1 + g₄.length⟩⟩)) i
      (g₁ ++ (':' :: (g₂ ++ (w ++ (g₃ ++ (':' :: (g₄ ++ v))))))) := by
  intro depth p rest last room parted meets follows stands
  simp only [List.append_assoc, List.cons_append, List.length_append, List.length_cons] at stands room
  obtain ⟨d, rfl, fits⟩ : ∃ d, depth = d + 1 ∧ 16 * (w.length + v.length) + 6 ≤ d :=
    depth_succ (by omega)
  have colon := takes_colon gap₄ (v ++ rest)
  obtain ⟨q, opened, fresh⟩ := eat_takes (w := [':']) (stands_trivia gap₁.trivia stands)
    (takes_colon gap₂ _)
  obtain ⟨q, started, stands⟩ := reads_bound first front d q _ _ (by omega) (parted_gap gap₃ _)
    (meets_gap gap₃ colon) (Token.ends_mono (ends_symbol rfl (by decide)) (by decide))
    (stands_trivia gap₂.trivia (stands_of_fresh fresh))
  obtain ⟨q, parts, fresh⟩ := eat_takes (stands_trivia gap₃.trivia stands) colon
  obtain ⟨q, counted, stands⟩ := reads_bound second front' d q rest last (by omega) parted meets follows.1
    (stands_trivia gap₄.trivia (stands_of_fresh fresh))
  refine ⟨q, ?_, stands_at stands ?_⟩
  · rw [Parser.slice, run_bind opened]
    simp only [if_true]
    rw [run_bind started, run_bind parts]
    simp only [if_true]
    rw [run_bind counted]
    rfl
  · simp only [List.length_append, List.length_cons]
    omega

theorem reads_noFallback : Reads limit allow (.fallback none) i [] := by
  intro depth p rest token room parted meets follows stands
  obtain ⟨d, rfl⟩ := Nat.exists_eq_add_one.mpr (show 0 < depth by omega)
  have noMinus : token ≠ .symbol .minus := by
    rw [follows]
    decide
  obtain ⟨q, ate, stands⟩ := eat_meets stands meets noMinus
  refine ⟨q, ?_, stands⟩
  rw [Parser.fallback, run_bind ate]
  rfl

theorem reads_fallback {e : Expr} (gap₁ : Gap g₁) (gap₂ : Gap g₂)
    (inner : Reads limit allow (.expression e) (i + g₁.length + 1 + g₂.length) w) :
    Reads limit allow (.fallback (some e)) i (g₁ ++ ('-' :: (g₂ ++ w))) := by
  intro depth p rest token room parted meets follows stands
  simp only [List.append_assoc, List.cons_append, List.length_append, List.length_cons] at stands room
  obtain ⟨d, rfl, fits⟩ : ∃ d, depth = d + 1 ∧ 16 * w.length + 12 ≤ d := depth_succ (by omega)
  obtain ⟨q, opened, fresh⟩ := eat_takes (w := ['-']) (stands_trivia gap₁.trivia stands)
    (takes_minus gap₂ _)
  subst follows
  obtain ⟨q, done, stands⟩ := inner d q rest _ fits parted meets ⟨ends_symbol rfl (by decide), by decide⟩
    (stands_trivia gap₂.trivia (stands_of_fresh fresh))
  refine ⟨q, ?_, stands_at stands ?_⟩
  · rw [Parser.fallback, run_bind opened]
    simp only [if_true]
    rw [run_bind done]
    rfl
  · simp only [List.length_append, List.length_cons]
    omega

theorem reads_defined {s : String} (name : IsName s) (gap₁ : Gap g₁) (gap₂ : Gap g₂) :
    Reads limit allow (.braced (.defined s)) i (s.toList ++ (g₁ ++ ('?' :: (g₂ ++ ['\x7d'])))) := by
  intro depth p rest room stands
  simp only [List.append_assoc, List.cons_append, List.nil_append, List.length_append,
    List.length_cons] at stands room
  obtain ⟨d, rfl⟩ := Nat.exists_eq_add_one.mpr (show 0 < depth by omega)
  obtain ⟨q, named, fresh⟩ := expectIdentifier_takes stands (takes_name name (parted_word (parted_gap gap₁ _)))
  obtain ⟨q, asked, fresh⟩ := eat_takes (w := ['?']) (stands_trivia gap₁.trivia (stands_of_fresh fresh))
    (takes_question gap₂ _)
  obtain ⟨q, closed, fresh⟩ := expect_takes (stands_trivia gap₂.trivia (stands_of_fresh fresh))
    (takes_closeBrace rest)
  refine ⟨q, ?_, fresh_at fresh ?_⟩
  · rw [Parser.reference, run_bind named, run_bind asked, String.ofList_toList]
    simp only [if_true]
    rw [run_bind closed]
    rfl
  · simp only [List.length_append, List.length_cons, List.length_nil]
    omega

theorem suffixed_closeBrace {g : List Char} (gap : Gap g) (rest : List Char) :
    Suffixed 4 (g ++ ('\x7d' :: rest)) :=
  suffixed_gap (w := ['\x7d']) gap (takes_closeBrace rest) rfl

theorem reads_reference {r : Reference Expr} {w₁ w₂ w₃ w₄ g : List Char} (name : IsName r.name)
    (written₁ : Written tight allow (.slice r.slice) (i + r.name.toList.length) w₁)
    (slice : Reads limit allow (.slice r.slice) (i + r.name.toList.length) w₁)
    (written₂ : WrittenTransforms r.transforms w₂) (written₃ : WrittenLength r.length w₃)
    (written₄ : Written tight allow (.fallback r.fallback)
      (i + r.name.toList.length + w₁.length + w₂.length + w₃.length) w₄)
    (fallback : Reads limit allow (.fallback r.fallback)
      (i + r.name.toList.length + w₁.length + w₂.length + w₃.length) w₄)
    (gap : Gap g) (noComment : r.length = true → (w₄ ++ g).head? ≠ some '#') :
    Reads limit allow (.braced (.reference r)) i
      (r.name.toList ++ (w₁ ++ (w₂ ++ (w₃ ++ (w₄ ++ (g ++ ['\x7d'])))))) := by
  intro depth p rest room stands
  simp only [List.append_assoc, List.cons_append, List.nil_append, List.length_append,
    List.length_cons, List.length_nil] at stands room
  have noComment : r.length = true → (w₄ ++ (g ++ ('\x7d' :: rest))).head? ≠ some '#' := by
    intro length
    rw [← List.append_assoc, List.head?_append_of_ne_nil _ (List.append_ne_nil_of_right_ne_nil _ gap.nonempty)]
    exact noComment length
  -- what each suffix is followed by, from the last one on
  have last := suffixed_closeBrace gap rest
  have behindLength := suffixed_fallback written₄ last
  have behindTransforms := suffixed_length written₃ behindLength noComment
  have behindSlice := suffixed_transforms written₂ behindTransforms
  have behindName := suffixed_slice written₁ behindSlice
  obtain ⟨d, rfl, fits⟩ : ∃ d, depth = d + 1 ∧
      16 * (w₁.length + w₂.length + w₄.length) + 15 ≤ d := depth_succ (by omega)
  have enough : w₂.length + 1 ≤ d := by omega
  obtain ⟨q, named, fresh⟩ := expectIdentifier_takes stands (takes_name name (parted_word behindName.1))
  obtain ⟨_, token, m, meets, found, _⟩ := behindName
  have noQuestion : token ≠ .symbol .question := by
    rintro rfl
    cases found
  obtain ⟨q, defined, stands⟩ := eat_meets (stands_of_fresh fresh) meets noQuestion
  obtain ⟨parted, token, m, meets, found, later⟩ := behindSlice
  have noColon : token ≠ .symbol .colon := by
    rintro rfl
    cases found
    exact absurd later (by decide)
  obtain ⟨q, sliced, stands⟩ := slice d q _ token (by omega) parted meets ⟨Token.ends_suffix found, noColon⟩
    stands
  obtain ⟨q, transformed, stands⟩ := transforms_written written₂ enough behindTransforms stands
  obtain ⟨q, counted, stands⟩ := eat_length written₃ behindLength noComment stands
  obtain ⟨q, replaced, stands⟩ := fallback d q _ _ (by omega) last.1
    (meets_gap gap (takes_closeBrace rest)) rfl stands
  obtain ⟨q, closed, fresh⟩ := expect_takes (stands_trivia gap.trivia stands) (takes_closeBrace rest)
  refine ⟨q, ?_, fresh_at fresh ?_⟩
  · rw [Parser.reference, run_bind named, run_bind defined, String.ofList_toList]
    simp only [Bool.false_eq_true, if_false]
    rw [run_bind sliced, run_bind transformed, run_bind counted, run_bind replaced, run_bind closed]
    rfl
  · simp only [List.length_append, List.length_cons, List.length_nil]
    omega

theorem allowCall_ok {name : String} {given : Nat} (allowed : allow name given = .ok ()) (p : Parser) :
    allowCall allow name given p = .ok () p := by
  rw [allowCall, allowed]
  rfl

theorem reads_noArguments : Reads limit allow (.call []) i [')'] := by
  intro name position allowed depth p rest room stands
  obtain ⟨d, rfl⟩ := Nat.exists_eq_add_one.mpr (show 0 < depth by omega)
  obtain ⟨q, closed, fresh⟩ := eat_takes (w := [')']) stands (takes_closeParen rest)
  refine ⟨q, ?_, fresh⟩
  change Parser.call allow (d + 1) name position p = _
  rw [Parser.call, run_bind closed]
  simp only [if_true]
  exact run_bind (f := fun _ => pure (Expr.call name position [])) (allowCall_ok allowed q)

theorem reads_someArguments {es : List Expr} {token : Token} (inner : Reads limit allow (.arguments es) i w)
    (first : ∀ rest, Meets (w ++ rest) token) (noClose : token ≠ .symbol .closeParen) :
    Reads limit allow (.call es) i w := by
  intro name position allowed depth p rest room stands
  obtain ⟨d, rfl, fits⟩ : ∃ d, depth = d + 1 ∧ 16 * w.length + 0 ≤ d := depth_succ room
  obtain ⟨q, alone, stands⟩ := eat_meets stands (first rest) noClose
  obtain ⟨q, done, fresh⟩ := inner d q rest fits stands
  refine ⟨q, ?_, fresh⟩
  change Parser.call allow (d + 1) name position p = _
  rw [Parser.call, run_bind alone]
  simp only [Bool.false_eq_true, if_false]
  rw [run_bind done, run_bind (allowCall_ok allowed q)]
  rfl

theorem reads_lastArgument {e : Expr} {g : List Char} (inner : Reads limit allow (.expression e) i w)
    (gap : Gap g) : Reads limit allow (.arguments [e]) i (w ++ (g ++ [')'])) := by
  intro depth p rest room stands
  have some₁ := List.length_pos_of_ne_nil gap.nonempty
  simp only [List.append_assoc, List.cons_append, List.nil_append, List.length_append,
    List.length_cons] at stands room
  obtain ⟨d, rfl, fits⟩ : ∃ d, depth = d + 1 ∧ 16 * w.length + 12 ≤ d := depth_succ (by omega)
  have closes := meets_gap gap (takes_closeParen rest)
  obtain ⟨q, done, stands⟩ := inner d p _ _ fits (parted_gap gap _) closes
    ⟨ends_symbol rfl (by decide), by decide⟩ stands
  obtain ⟨q, alone, stands⟩ := eat_meets (s := .comma) stands closes (by decide)
  obtain ⟨q, closed, fresh⟩ := expect_takes (stands_trivia gap.trivia stands) (takes_closeParen rest)
  refine ⟨q, ?_, fresh_at fresh ?_⟩
  · rw [Parser.arguments, run_bind done, run_bind alone]
    simp only [Bool.false_eq_true, if_false]
    rw [run_bind closed]
    rfl
  · simp only [List.length_append, List.length_cons, List.length_nil]
    omega

theorem reads_argument {e : Expr} {es : List Expr} {v : List Char}
    (first : Reads limit allow (.expression e) i w) (gap₁ : Gap g₁) (gap₂ : Gap g₂)
    (more : Reads limit allow (.arguments es) (i + w.length + g₁.length + 1 + g₂.length) v) :
    Reads limit allow (.arguments (e :: es)) i (w ++ (g₁ ++ (',' :: (g₂ ++ v)))) := by
  intro depth p rest room stands
  simp only [List.append_assoc, List.cons_append, List.length_append, List.length_cons] at stands room
  obtain ⟨d, rfl, fits⟩ : ∃ d, depth = d + 1 ∧ 16 * (w.length + v.length) + 12 ≤ d :=
    depth_succ (by omega)
  have comma := takes_comma gap₂ (v ++ rest)
  obtain ⟨q, done, stands⟩ := first d p _ _ (by omega) (parted_gap gap₁ _) (meets_gap gap₁ comma)
    ⟨ends_symbol rfl (by decide), by decide⟩ stands
  obtain ⟨q, parts, fresh⟩ := eat_takes (stands_trivia gap₁.trivia stands) comma
  obtain ⟨q, others, fresh⟩ := more d q rest (by omega) (stands_trivia gap₂.trivia (stands_of_fresh fresh))
  refine ⟨q, ?_, fresh_at fresh ?_⟩
  · rw [Parser.arguments, run_bind done, run_bind parts]
    simp only [if_true]
    rw [run_bind others]
    rfl
  · simp only [List.length_append, List.length_cons]
    omega

end Parser

end TemplateExpr
