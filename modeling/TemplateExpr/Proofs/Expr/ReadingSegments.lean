import TemplateExpr.Proofs.Expr.ReadingReferences
/-!
Templates that are written are read. Text ends where the next segment is written, and within a quoted template
the quotes of the templates around it mean nothing, since each value is read up to its own end.
-/
namespace TemplateExpr

open Token Source Numeral

theorem stops_dollar {follow : Option Char} {c : Char} {cs : List Char}
    (opener : IsOpener c) : Stops follow ('$' :: c :: cs) := by
  intro limit position
  rw [inText, opensInterpolation_dollar.mpr ⟨c, rfl, opener⟩]
  simp

theorem stops_follow {q : Char} {cs : List Char} : Stops (some q) (q :: cs) := by
  intro limit position
  simp [inText]

theorem stops_end {follow : Option Char} : Stops follow [] := fun _ _ => rfl

theorem stops_of_written {tight : Prop} {allow : String → Nat → Except Error Unit} {follow : Option Char}
    {values i : Nat} {ss : List (Segment Expr)} {w rest : List Char}
    (written : Written tight allow (.segments follow values ss) i w)
    (alone : ∀ t more, ss ≠ .text t :: more) (last : follow = none → rest = []) : Stops follow (w ++ rest) := by
  cases written with
  | @text _ _ _ s ss _ _ _ _ _ _ => exact absurd rfl (alone s ss)
  | lookBack _ _ _ _ _ _ _ => exact stops_dollar (Or.inr (Or.inr (Or.inl rfl)))
  | braced _ _ _ => exact stops_dollar (Or.inl rfl)
  | expression _ _ _ _ => exact stops_dollar (Or.inr (Or.inl rfl))
  | function name _ _ _ _ _ =>
    obtain ⟨c, cs, chars, start, _⟩ := name.word
    rw [chars]
    exact stops_dollar (Or.inr (Or.inr (Or.inr start)))
  | close _ => exact stops_follow
  | stop =>
    rw [last rfl]
    exact stops_end

namespace Parser

variable {limit i : Nat} {allow : String → Nat → Except Error Unit} {follow : Option Char} {values : Nat}
  {ss : List (Segment Expr)} {v : List Char}

theorem segments_text {s : String} {w : List Char} (escaped : EscapedText follow s.toList w)
    (nonempty : s ≠ "") (stops : ∀ rest, (follow = none → rest = []) → Stops follow (v ++ rest))
    (more : Reads limit allow (.segments follow values ss) (i + w.length) v) :
    Reads limit allow (.segments follow values (.text s :: ss)) i (w ++ v) := by
  intro depth p rest room ending last fresh
  rw [List.append_assoc] at fresh
  rw [List.length_append] at room
  have chars : s.toList ≠ [] := by
    intro none
    exact nonempty (String.toList_inj.mp none)
  have some₁ := List.length_pos_of_ne_nil (escapedText_ne_nil ending escaped chars)
  obtain ⟨d, rfl, fits⟩ : ∃ d, depth = d + 1 ∧ 16 * v.length + 1 ≤ d := depth_succ (by omega)
  obtain ⟨q, read, fresh⟩ := scan_fresh fresh (nextText_text limit i ending escaped chars (stops rest last))
  obtain ⟨q, done, fresh⟩ := more d q rest fits ending last fresh
  refine ⟨q, ?_, fresh_at fresh ?_⟩
  · rw [segments, next_eq_scan, run_bind read]
    dsimp only
    rw [run_bind done, String.ofList_toList]
    rfl
  · rw [List.length_append, Nat.add_assoc]

theorem ends_bracket {g : List Char} (trivia : Trivia g) (rest : List Char) : Ends (g ++ (']' :: rest)) := by
  by_cases nonempty : g = []
  · rw [nonempty]
    intro c head
    cases head
    decide
  · exact ends_of_parted (parted_gap ⟨trivia, nonempty⟩ _)

theorem lookBack_takes {n : Nat} {l : Literal} {d : Decimal} {g rest : List Char} {p : Parser}
    (plain : l.IsPlain) (value : Yields l d) (distance : d.toInt64? = some (n : Int))
    (there : 1 ≤ n ∧ n ≤ values) (trivia : Trivia g)
    (stands : Stands limit p i (l.chars ++ (g ++ (']' :: rest)))) :
    ∃ q, lookBack values p = .ok n q ∧ Fresh limit q (i + l.chars.length + g.length + 1) rest := by
  have takes : Takes (.number (l.numeral d)) l.chars (g ++ (']' :: rest)) :=
    fun limit position => nextExpression_number limit position plain.1 value (ends_bracket trivia rest)
  obtain ⟨q, read, fresh⟩ := advance_takes stands takes
  obtain ⟨q, closed, fresh⟩ := expect_takes (stands_trivia trivia (stands_of_fresh fresh))
    (takes_closeBracket rest)
  refine ⟨q, ?_, fresh⟩
  have found : (some (n : Int)).filter (fun n => 1 ≤ n && n ≤ (values : Int)) = some (n : Int) := by
    rw [Option.filter_some, if_pos (by simpa using there)]
  have isPlain : (l.numeral d).plain = true := l.plain_iff.mpr plain
  have number : (l.numeral d).value = d := rfl
  rw [lookBack, run_bind read]
  dsimp only
  rw [if_pos isPlain, number, distance, found]
  dsimp only
  rw [run_bind closed]
  rfl

theorem segments_lookBack {n : Nat} {l : Literal} {d : Decimal} {g₁ g₂ : List Char} (trivia : Trivia g₁)
    (plain : l.IsPlain) (value : Yields l d) (distance : d.toInt64? = some (n : Int))
    (there : 1 ≤ n ∧ n ≤ values) (trivia' : Trivia g₂)
    (more : Reads limit allow (.segments follow values ss)
      (i + 2 + g₁.length + l.chars.length + g₂.length + 1) v) :
    Reads limit allow (.segments follow values (.lookBack n i :: ss)) i
      ('$' :: '[' :: (g₁ ++ (l.chars ++ (g₂ ++ (']' :: v))))) := by
  intro depth p rest room ending last fresh
  simp only [List.append_assoc, List.cons_append, List.length_append, List.length_cons] at fresh room
  obtain ⟨d, rfl, fits⟩ : ∃ d, depth = d + 1 ∧ 16 * v.length + 1 ≤ d := depth_succ (by omega)
  obtain ⟨q, opened, fresh⟩ := scan_fresh fresh (nextText_open limit i ending rfl _)
  obtain ⟨q, back, fresh⟩ := lookBack_takes plain value distance there trivia'
    (stands_trivia trivia (stands_of_fresh fresh))
  obtain ⟨q, done, fresh⟩ := more d q rest fits ending last fresh
  refine ⟨q, ?_, fresh_at fresh ?_⟩
  · rw [segments, next_eq_scan, run_bind opened]
    dsimp only
    rw [run_bind back, run_bind done]
    rfl
  · simp only [List.length_append, List.length_cons]
    omega

theorem segments_braced {e : Expr} {g w : List Char} (trivia : Trivia g)
    (inside : Reads limit allow (.braced e) (i + 2 + g.length) w)
    (more : Reads limit allow (.segments follow (values + 1) ss) (i + 2 + g.length + w.length) v) :
    Reads limit allow (.segments follow values (.value e :: ss)) i ('$' :: '\x7b' :: (g ++ (w ++ v))) := by
  intro depth p rest room ending last fresh
  simp only [List.append_assoc, List.cons_append, List.length_append, List.length_cons] at fresh room
  obtain ⟨d, rfl, fits⟩ : ∃ d, depth = d + 1 ∧ 16 * (w.length + v.length) + 1 ≤ d := depth_succ (by omega)
  obtain ⟨q, opened, fresh⟩ := scan_fresh fresh (nextText_open limit i ending rfl _)
  obtain ⟨q, value, fresh⟩ := inside d q (v ++ rest) (by omega)
    (stands_trivia trivia (stands_of_fresh fresh))
  obtain ⟨q, done, fresh⟩ := more d q rest (by omega) ending last fresh
  refine ⟨q, ?_, fresh_at fresh ?_⟩
  · rw [segments, next_eq_scan, run_bind opened]
    dsimp only
    rw [run_bind value, run_bind done]
    rfl
  · simp only [List.length_append, List.length_cons]
    omega

theorem segments_expression {e : Expr} {g₁ w g₂ : List Char} (trivia : Trivia g₁)
    (inside : Reads limit allow (.expression e) (i + 2 + g₁.length) w) (gap : Gap g₂)
    (more : Reads limit allow (.segments follow (values + 1) ss)
      (i + 2 + g₁.length + w.length + g₂.length + 1) v) :
    Reads limit allow (.segments follow values (.value e :: ss)) i
      ('$' :: '(' :: (g₁ ++ (w ++ (g₂ ++ (')' :: v))))) := by
  intro depth p rest room ending last fresh
  simp only [List.append_assoc, List.cons_append, List.length_append, List.length_cons] at fresh room
  obtain ⟨d, rfl, fits⟩ : ∃ d, depth = d + 1 ∧ 16 * (w.length + v.length) + 12 ≤ d :=
    depth_succ (by omega)
  obtain ⟨q, opened, fresh⟩ := scan_fresh fresh (nextText_open limit i ending rfl _)
  obtain ⟨q, value, stands⟩ := inside d q _ _ (by omega) (parted_gap gap _)
    (meets_gap gap (takes_closeParen (v ++ rest))) ⟨ends_symbol rfl (by decide), by decide⟩
    (stands_trivia trivia (stands_of_fresh fresh))
  obtain ⟨q, closed, fresh⟩ := expect_takes (stands_trivia gap.trivia stands) (takes_closeParen (v ++ rest))
  obtain ⟨q, done, fresh⟩ := more d q rest (by omega) ending last fresh
  refine ⟨q, ?_, fresh_at fresh ?_⟩
  · rw [segments, next_eq_scan, run_bind opened]
    dsimp only
    rw [run_bind value, run_bind closed, run_bind done]
    rfl
  · simp only [List.length_append, List.length_cons]
    omega

theorem segments_function {s : String} {es : List Expr} {g₁ g₂ w : List Char} (name : IsName s)
    (trivia₁ : Trivia g₁) (trivia₂ : Trivia g₂)
    (inside : Reads limit allow (.call es) (i + 1 + s.toList.length + g₁.length + 1 + g₂.length) w)
    (allowed : allow s es.length = .ok ())
    (more : Reads limit allow (.segments follow (values + 1) ss)
      (i + 1 + s.toList.length + g₁.length + 1 + g₂.length + w.length) v) :
    Reads limit allow (.segments follow values (.value (.call s i es) :: ss)) i
      ('$' :: (s.toList ++ (g₁ ++ ('(' :: (g₂ ++ (w ++ v)))))) := by
  intro depth p rest room ending last fresh
  simp only [List.append_assoc, List.cons_append, List.length_append, List.length_cons] at fresh room
  obtain ⟨d, rfl, fits⟩ : ∃ d, depth = d + 1 ∧ 16 * (w.length + v.length) + 1 ≤ d := depth_succ (by omega)
  obtain ⟨q, named, fresh⟩ := scan_fresh fresh
    (nextText_function limit i ending name.word (word_stops trivia₁ _))
  obtain ⟨q, opened, fresh⟩ := expect_takes (w := ['(']) (stands_trivia trivia₁ (stands_of_fresh fresh))
    (takes_openParen _)
  obtain ⟨q, value, fresh⟩ := inside s i allowed d q (v ++ rest) (by omega)
    (stands_trivia trivia₂ (stands_of_fresh fresh))
  obtain ⟨q, done, fresh⟩ := more d q rest (by omega) ending last fresh
  refine ⟨q, ?_, fresh_at fresh ?_⟩
  · rw [segments, next_eq_scan, run_bind named]
    dsimp only
    rw [run_bind opened, String.ofList_toList, run_bind value, run_bind done]
    rfl
  · simp only [List.length_append, List.length_cons]
    omega

theorem segments_close {q : Char} : Reads limit allow (.segments (some q) values []) i [q] := by
  intro depth p rest room ending last fresh
  obtain ⟨d, rfl⟩ := Nat.exists_eq_add_one.mpr (show 0 < depth by omega)
  obtain ⟨q', read, fresh⟩ := scan_fresh fresh (nextText_follow limit i q rest)
  refine ⟨q', ?_, fresh⟩
  rw [segments, next_eq_scan, run_bind read]
  rfl

theorem segments_stop : Reads limit allow (.segments none values []) i [] := by
  intro depth p rest room ending last fresh
  obtain ⟨d, rfl⟩ := Nat.exists_eq_add_one.mpr (show 0 < depth by omega)
  rw [last rfl] at fresh ⊢
  obtain ⟨q, read, fresh⟩ := scan_fresh fresh (nextText_stop limit i none)
  refine ⟨q, ?_, fresh⟩
  rw [segments, next_eq_scan, run_bind read]
  rfl

theorem reads_string {q : Char} {w : List Char} (quote : q = '"' ∨ q = '\'')
    (inside : Reads limit allow (.segments (some q) 0 ss) (i + 1) w) :
    Reads limit allow (.primary (.template ss false)) i (q :: w) := by
  intro depth p rest token room parted meets ends stands
  rw [List.length_cons] at room
  obtain ⟨d, rfl, fits⟩ : ∃ d, depth = d + 1 ∧ 16 * w.length + 1 ≤ d := depth_succ (by omega)
  have ending : IsFollow (some q) := by
    rcases quote with rfl | rfl
    · exact Or.inr (Or.inl rfl)
    · exact Or.inr (Or.inr rfl)
  obtain ⟨p', opened, fresh⟩ := advance_takes (w := [q]) stands (takes_quote quote _)
  obtain ⟨p', read, fresh⟩ := inside d p' rest fits ending (absurd · (Option.some_ne_none q)) fresh
  obtain ⟨p', done, fresh⟩ := ofSegments_fresh ss false fresh
  refine ⟨p', ?_, stands_at (stands_of_fresh fresh) ?_⟩
  · rw [Parser.primary, run_bind opened]
    simp only [String.toList_ofList, List.head?_cons]
    rw [run_bind read]
    exact done
  · rw [List.length_cons, Nat.add_assoc, Nat.add_comm 1]

end Parser

end TemplateExpr
