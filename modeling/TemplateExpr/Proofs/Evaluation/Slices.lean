import TemplateExpr.Expr.Parser
import TemplateExpr.Proofs.Decimal.IntegerViews
import TemplateExpr.Proofs.Function.StandardCalls
/-!
Slices of texts. A slice keeps exactly the characters between its bounds, or fails with the first check that a bound
does not pass, at the place of that bound. A bound is a signed 32-bit integer, so of a text that is longer than any
of them no slice begins behind the last one. The function `substr` takes all bounds, and moves them into the text.
-/
namespace TemplateExpr

variable {σ : Type}

def maxBound : Nat := 2147483647

/-- The number is the bound `i`, and not above `most`. -/
structure Admits (n : Decimal) (most i : Nat) : Prop where
  whole : n.toRat = i
  fits : i ≤ maxBound
  inside : i ≤ most

/-- The first check that a number does not pass as a bound of at most `most`, as it is reported. -/
inductive Refuses (position most : Nat) (n : Decimal) : Error → Prop where
  | fractional (fraction : ∀ i : ℤ, n.toRat ≠ i) : Refuses position most n (.fractional position n.toText)
  | noBound {i : ℤ} (whole : n.toRat = i) (outside : i < 0 ∨ maxBound < i) :
      Refuses position most n (.outOfRange position n.toText)
  | beyond {i : Nat} (whole : n.toRat = i) (fits : i ≤ maxBound) (beyond : most < i) :
      Refuses position most n (.outOfRange position (toString i))

section Checks

variable {v : Value} {n : Decimal}

theorem boundIndex_of_fraction (number : v.asNumber = .ok n) (normal : n.IsNormal)
    (fraction : ∀ i : ℤ, n.toRat ≠ i) (position : Nat) :
    boundIndex position v = .error (.fractional position n.toText) := by
  have parts : ¬ n.IsInteger := by
    rw [Decimal.isInteger_iff normal]
    rintro ⟨i, whole⟩
    exact fraction i whole
  rw [boundIndex, number]
  change (if ¬ n.IsInteger then throw _ else _ : Except Error Nat) = _
  rw [if_pos parts]
  rfl

theorem boundIndex_of_whole (number : v.asNumber = .ok n) (normal : n.IsNormal) {i : ℤ} (whole : n.toRat = i)
    (position : Nat) :
    boundIndex position v =
      if 0 ≤ i ∧ i ≤ maxBound then .ok i.toNat else .error (.outOfRange position n.toText) := by
  have integer : n.IsInteger := (Decimal.isInteger_iff normal).mpr ⟨i, whole⟩
  have index : n.toInt32?.filter (0 ≤ ·) = if 0 ≤ i ∧ i ≤ maxBound then some i else none := by
    have most : (maxBound : ℤ) = 2147483647 := rfl
    have bits := Decimal.fitsSigned_32_iff i
    have narrow := Decimal.converts_toInt32? normal
    rw [whole] at narrow
    rw [narrow.unique (.of_integer 32 i)]
    by_cases bound : 0 ≤ i ∧ i ≤ maxBound
    · rw [if_pos (by omega), Option.filter_some, if_pos (by simpa using bound.1), if_pos bound]
    · rw [if_neg bound]
      split
      · rw [Option.filter_some, if_neg]
        simp only [decide_eq_true_eq]
        omega
      · rfl
  rw [boundIndex, number]
  dsimp only [Bind.bind, Except.bind]
  rw [if_neg (not_not.mpr integer), index]
  by_cases bound : 0 ≤ i ∧ i ≤ maxBound
  · rw [if_pos bound, if_pos bound]
    rfl
  · rw [if_neg bound, if_neg bound]
    rfl

theorem admits_or_refuses (position most : Nat) (n : Decimal) :
    (∃ i, Admits n most i) ∨ ∃ e, Refuses position most n e := by
  by_cases whole : ∃ i : ℤ, n.toRat = i
  · obtain ⟨i, whole⟩ := whole
    by_cases bound : 0 ≤ i ∧ i ≤ maxBound
    · obtain ⟨j, rfl⟩ := Int.eq_ofNat_of_zero_le bound.1
      have whole : n.toRat = j := by rw [whole, Int.cast_natCast]
      by_cases inside : j ≤ most
      · exact .inl ⟨j, whole, by omega, inside⟩
      · exact .inr ⟨_, .beyond whole (by omega) (by omega)⟩
    · exact .inr ⟨_, .noBound whole (by omega)⟩
  · exact .inr ⟨_, .fractional fun i same => whole ⟨i, same⟩⟩

def checkedBound (position most : Nat) (v : Value) : Eval σ Nat := do
  let i ← Run.lift (boundIndex position v)
  Run.lift (withinLength position i most)
  return i

variable {position most i : Nat} {run : Run σ}

theorem checkedBound_admits (number : v.asNumber = .ok n) (normal : n.IsNormal) (admits : Admits n most i) :
    checkedBound position most v run = .ok i run := by
  have whole : n.toRat = ((i : ℤ) : ℚ) := admits.whole
  have fits := admits.fits
  have index : boundIndex position v = .ok i := by
    rw [boundIndex_of_whole number normal whole, if_pos (by omega), Int.toNat_natCast]
  have inside : withinLength position i most = .ok () := if_neg (Nat.not_lt.mpr admits.inside)
  have first : Run.lift (boundIndex position v) run = .ok i run := by
    rw [index]
    rfl
  have second : Run.lift (withinLength position i most) run = .ok () run := by
    rw [inside]
    rfl
  rw [checkedBound, run_bind first, run_bind second]
  rfl

theorem checkedBound_refuses (number : v.asNumber = .ok n) (normal : n.IsNormal) {e : Error}
    (refuses : Refuses position most n e) : checkedBound position most v run = .error e run := by
  cases refuses with
  | fractional fraction =>
    rw [checkedBound, boundIndex_of_fraction number normal fraction]
    rfl
  | noBound whole outside =>
    rw [checkedBound, boundIndex_of_whole number normal whole, if_neg (by omega)]
    rfl
  | @beyond i whole fits beyond =>
    have whole : n.toRat = ((i : ℤ) : ℚ) := whole
    have past : withinLength position i most = .error (.outOfRange position (toString i)) := if_pos beyond
    have index : Run.lift (boundIndex position v) run = .ok i run := by
      rw [boundIndex_of_whole number normal whole, if_pos (by omega)]
      rfl
    have refused : Run.lift (withinLength position i most) run = .error (.outOfRange position (toString i)) run := by
      rw [past]
      rfl
    rw [checkedBound, run_bind index, run_bind_error refused]

end Checks

def Reference.finish (r : Reference Expr) (kept : String) : Value :=
  let text := r.transforms.foldl (fun text transform => transform.apply text) kept
  if r.length then .ofInt text.length else .text text

def Bound.ComesTo (on : Surroundings σ) (bound : Bound Expr) (run : Run σ) (n : Decimal) (left : Run σ) : Prop :=
  ∃ v, Expr.eval on bound.part run = .ok v left ∧ v.asNumber = .ok n ∧ n.IsNormal

/-- What a slice of a text ends with and the run that it leaves, if its bounds come to numbers. The second bound is
not evaluated if the first one is refused. -/
inductive SliceEnds (on : Surroundings σ) (text : String) (run : Run σ) :
    Slice Expr → Run σ → Except Error String → Prop where
  | startRefused {start : Bound Expr} {count : Option (Bound Expr)} {s : Decimal} {left : Run σ} {e : Error}
      (starts : start.ComesTo on run s left) (refuses : Refuses start.position text.length s e) :
      SliceEnds on text run ⟨start, count⟩ left (.error e)
  | toEnd {start : Bound Expr} {s : Decimal} {left : Run σ} {i : Nat} (starts : start.ComesTo on run s left)
      (admits : Admits s text.length i) :
      SliceEnds on text run ⟨start, none⟩ left (.ok (String.ofList (text.toList.extract i text.length)))
  | countRefused {start count : Bound Expr} {s c : Decimal} {between left : Run σ} {i : Nat} {e : Error}
      (starts : start.ComesTo on run s between) (admits : Admits s text.length i)
      (counts : count.ComesTo on between c left) (refuses : Refuses count.position (text.length - i) c e) :
      SliceEnds on text run ⟨start, some count⟩ left (.error e)
  | within {start count : Bound Expr} {s c : Decimal} {between left : Run σ} {i j : Nat}
      (starts : start.ComesTo on run s between) (admits : Admits s text.length i)
      (counts : count.ComesTo on between c left) (fits : Admits c (text.length - i) j) :
      SliceEnds on text run ⟨start, some count⟩ left (.ok (String.ofList (text.toList.extract i (i + j))))

namespace Expr

variable {on : Surroundings σ} {text : String} {run left : Run σ} {slice : Slice Expr} {result : Except Error String}

theorem evalSlice_toEnd (on : Surroundings σ) (text : String) (start : Bound Expr) :
    evalSlice on text (some ⟨start, none⟩) = (do
      let i ← checkedBound start.position text.length (← eval on start.part)
      return String.ofList (text.toList.drop i)) := by
  obtain ⟨part, position⟩ := start
  rw [evalSlice]
  simp only [checkedBound, bind_assoc, pure_bind]

theorem evalSlice_within (on : Surroundings σ) (text : String) (start count : Bound Expr) :
    evalSlice on text (some ⟨start, some count⟩) = (do
      let i ← checkedBound start.position text.length (← eval on start.part)
      let j ← checkedBound count.position (text.length - i) (← eval on count.part)
      return String.ofList ((text.toList.drop i).take j)) := by
  obtain ⟨part, position⟩ := start
  obtain ⟨part', position'⟩ := count
  rw [evalSlice]
  simp only [checkedBound, bind_assoc, pure_bind]

theorem evalSlice_of_ends (ends : SliceEnds on text run slice left result) :
    evalSlice on text (some slice) run = Run.lift result left := by
  cases ends with
  | @startRefused start count s left e starts refuses =>
    obtain ⟨v, evaluated, number, normal⟩ := starts
    have refused : checkedBound start.position text.length v left = .error e left :=
      checkedBound_refuses number normal refuses
    cases count with
    | none => rw [evalSlice_toEnd, run_bind evaluated, run_bind_error refused]; rfl
    | some count => rw [evalSlice_within, run_bind evaluated, run_bind_error refused]; rfl
  | @toEnd start s left i starts admits =>
    obtain ⟨v, evaluated, number, normal⟩ := starts
    have whole : text.toList.extract i text.length = text.toList.drop i := by
      simp [List.extract_eq_take_drop, ← String.length_toList]
    rw [evalSlice_toEnd, run_bind evaluated, run_bind (checkedBound_admits number normal admits), whole]
    rfl
  | @countRefused start count s c between left i e starts admits counts refuses =>
    obtain ⟨v, evaluated, number, normal⟩ := starts
    obtain ⟨w, evaluated', number', normal'⟩ := counts
    rw [evalSlice_within, run_bind evaluated, run_bind (checkedBound_admits number normal admits), run_bind evaluated',
      run_bind_error (checkedBound_refuses number' normal' refuses)]
    rfl
  | @within start count s c between left i j starts admits counts fits =>
    obtain ⟨v, evaluated, number, normal⟩ := starts
    obtain ⟨w, evaluated', number', normal'⟩ := counts
    have part : text.toList.extract i (i + j) = (text.toList.drop i).take j := by
      simp [List.extract_eq_take_drop]
    rw [evalSlice_within, run_bind evaluated, run_bind (checkedBound_admits number normal admits), run_bind evaluated',
      run_bind (checkedBound_admits number' normal' fits), part]
    rfl

theorem exists_sliceEnds {s : Decimal} {between : Run σ} (starts : slice.start.ComesTo on run s between)
    (counts : ∀ count ∈ slice.count, ∀ i, Admits s text.length i → ∃ c left, count.ComesTo on between c left) :
    ∃ left result, SliceEnds on text run slice left result := by
  obtain ⟨start, count⟩ := slice
  rcases admits_or_refuses start.position text.length s with ⟨i, admits⟩ | ⟨e, refuses⟩
  · cases count with
    | none => exact ⟨_, _, .toEnd starts admits⟩
    | some count =>
      obtain ⟨c, left, counts⟩ := counts count rfl i admits
      rcases admits_or_refuses count.position (text.length - i) c with ⟨j, fits⟩ | ⟨e, refuses⟩
      · exact ⟨_, _, .within starts admits counts fits⟩
      · exact ⟨_, _, .countRefused starts admits counts refuses⟩
  · exact ⟨_, _, .startRefused starts refuses⟩

theorem eval_sliced {r : Reference Expr} (sliced : r.slice = some slice) (defined : on.symbols.read? r.name = some text)
    (ends : SliceEnds on text run slice left result) :
    eval on (.reference r) run = Run.lift (result.map r.finish) left := by
  obtain ⟨name, _, transforms, length, fallback⟩ := r
  cases sliced
  have evaluated := evalSlice_of_ends ends
  rw [eval, defined]
  dsimp only
  cases result with
  | ok kept => rw [run_bind evaluated]; rfl
  | error e => rw [run_bind_error evaluated]; rfl

end Expr

namespace Parser

variable {allow : String → Nat → Except Error Unit} {p q : Parser} {depth : Nat}

theorem held_of_peek {t : Terminal} (looked : peek p = .ok t q) : q.held = some t := by
  obtain ⟨r, u, first, looked⟩ := bind_ok looked
  cases first
  cases held : p.held with
  | some t' =>
    simp only [held] at looked
    cases looked
    exact held
  | none =>
    simp only [held] at looked
    obtain ⟨t', u, _, looked⟩ := bind_ok looked
    obtain ⟨_, v, changed, looked⟩ := bind_ok looked
    cases changed
    cases looked
    rfl

theorem bound_begins {b : Bound Expr} (read : bound allow depth p = .ok b q) :
    ∃ (t : Terminal) (r : Parser) (d : Nat), r.held = some t ∧ binary allow d .multiplicative r = .ok b.part q ∧
      b.position = t.position := by
  cases depth with
  | zero => cases read
  | succ d =>
    rw [bound] at read
    obtain ⟨t, r, looked, read⟩ := bind_ok read
    obtain ⟨e, u, parsed, read⟩ := bind_ok read
    cases read
    exact ⟨t, r, d, held_of_peek looked, parsed, rfl⟩

end Parser

theorem admits_iff {n : Decimal} {most i : Nat} (short : most ≤ maxBound) :
    Admits n most i ↔ n.toRat = i ∧ i ≤ most := by
  constructor
  · intro admits
    exact ⟨admits.whole, admits.inside⟩
  · rintro ⟨whole, inside⟩
    exact ⟨whole, Nat.le_trans inside short, inside⟩

theorem Admits.eq_ofInt {n : Decimal} {most i : Nat} (admits : Admits n most i) (normal : n.IsNormal) :
    n = Decimal.ofInt i ∧ FitsSigned 64 i := by
  have whole : n.toRat = ((i : ℤ) : ℚ) := admits.whole
  have fits := admits.fits
  have most : maxBound = 2147483647 := rfl
  refine ⟨Decimal.eq_ofInt normal whole, ?_⟩
  rw [Decimal.fitsSigned_64_iff]
  omega

namespace Standard

theorem take_drop_eq_extract (cs : List Char) (s c : ℤ) :
    (cs.drop s.toNat).take c.toNat =
      cs.extract (min (max s 0) cs.length).toNat (min (min (max s 0) cs.length + max c 0) cs.length).toNat := by
  rw [List.extract_eq_take_drop]
  by_cases inside : s.toNat ≤ cs.length
  · have same : (min (max s 0) (cs.length : ℤ)).toNat = s.toNat := by omega
    rw [same, List.take_eq_take_iff, List.length_drop]
    omega
  · rw [List.drop_of_length_le (by omega), List.drop_of_length_le (by omega), List.take_nil, List.take_nil]

variable {clock : Timestamp}

theorem answers_substr_between (text : String) {s c : ℤ} (start : FitsSigned 64 s) (count : FitsSigned 64 c) :
    Answers clock "substr" [.text text, .ofInt s, .ofInt c]
      (.text (String.ofList (text.toList.extract (min (max s 0) text.length).toNat
        (min (min (max s 0) text.length + max c 0) text.length).toNat))) := by
  have cut := take_drop_eq_extract text.toList s c
  rw [String.length_toList] at cut
  rw [← cut]
  exact answers_substr (substr_ofInt text start count)

theorem answers_substr_sliced {on : Surroundings σ} {text kept : String} {run between left : Run σ}
    {start count : Bound Expr} {s c : Decimal} (starts : start.ComesTo on run s between)
    (counts : count.ComesTo on between c left)
    (sliced : Expr.evalSlice on text (some ⟨start, some count⟩) run = .ok kept left) :
    Answers clock "substr" [.text text, .number s, .number c] (.text kept) := by
  have ⟨_, _, _, normal⟩ := starts
  have ⟨_, _, _, normal'⟩ := counts
  rcases admits_or_refuses start.position text.length s with ⟨i, admits⟩ | ⟨e, refuses⟩
  · rcases admits_or_refuses count.position (text.length - i) c with ⟨j, fits⟩ | ⟨e, refuses⟩
    · cases sliced.symm.trans (Expr.evalSlice_of_ends (.within starts admits counts fits))
      obtain ⟨rfl, small⟩ := admits.eq_ofInt normal
      obtain ⟨rfl, small'⟩ := fits.eq_ofInt normal'
      have cut := substr_ofInt text small small'
      rw [Int.toNat_natCast, Int.toNat_natCast] at cut
      refine answers_substr (cut.trans ?_)
      rw [List.extract_eq_take_drop, Nat.add_sub_cancel_left]
    · cases sliced.symm.trans (Expr.evalSlice_of_ends (.countRefused starts admits counts refuses))
  · have ends : SliceEnds on text run ⟨start, some count⟩ between (.error e) := .startRefused starts refuses
    cases sliced.symm.trans (Expr.evalSlice_of_ends ends)

end Standard

/-- A slice of a defined text, whose bounds come to numbers, keeps the characters between its bounds, or fails with the
first check that is not passed, and with the place of the token with which the expression of that bound begins. In a
text that is no longer than the greatest bound, the bounds that pass are the integers in their ranges. The function
`substr` never fails on integers of 64 bits: it cuts between the bounds moved into the text, which is the slice if that
does not fail. -/
theorem slice_exact :
    (∀ (σ : Type) (on : Surroundings σ) (r : Reference Expr) (slice : Slice Expr) (text : String) (run between : Run σ)
        (s : Decimal), r.slice = some slice → on.symbols.read? r.name = some text →
      slice.start.ComesTo on run s between →
      (∀ count ∈ slice.count, ∀ i, Admits s text.length i → ∃ c left, count.ComesTo on between c left) →
      ∃ left result, SliceEnds on text run slice left result ∧
        Expr.eval on (.reference r) run = Run.lift (result.map r.finish) left) ∧
    (∀ (n : Decimal) (most i : Nat), most ≤ maxBound → (Admits n most i ↔ n.toRat = i ∧ i ≤ most)) ∧
    (∀ (allow : String → Nat → Except Error Unit) (depth : Nat) (p q : Parser) (b : Bound Expr),
      Parser.bound allow depth p = .ok b q →
      ∃ (t : Terminal) (r : Parser) (d : Nat), r.held = some t ∧
        Parser.binary allow d .multiplicative r = .ok b.part q ∧ b.position = t.position) ∧
    (∀ (clock : Timestamp) (text : String) (s c : ℤ), FitsSigned 64 s → FitsSigned 64 c →
      let start := min (max s 0) text.length
      let stop := min (start + max c 0) text.length
      Standard.Answers clock "substr" [.text text, .ofInt s, .ofInt c]
        (.text (String.ofList (text.toList.extract start.toNat stop.toNat)))) ∧
    (∀ (σ : Type) (on : Surroundings σ) (text kept : String) (run between left : Run σ) (start count : Bound Expr)
        (s c : Decimal) (clock : Timestamp), start.ComesTo on run s between → count.ComesTo on between c left →
      Expr.evalSlice on text (some ⟨start, some count⟩) run = .ok kept left →
      Standard.Answers clock "substr" [.text text, .number s, .number c] (.text kept)) := by
  refine ⟨?_, ?_, ?_, ?_, ?_⟩
  · intro σ on r slice text run between s sliced defined starts counts
    obtain ⟨left, result, ends⟩ := Expr.exists_sliceEnds starts counts
    exact ⟨left, result, ends, Expr.eval_sliced sliced defined ends⟩
  · intro n most i short
    exact admits_iff short
  · intro allow depth p q b read
    exact Parser.bound_begins read
  · intro clock text s c start count
    exact Standard.answers_substr_between text start count
  · intro σ on text kept run between left start count s c clock starts counts sliced
    exact Standard.answers_substr_sliced starts counts sliced

end TemplateExpr
