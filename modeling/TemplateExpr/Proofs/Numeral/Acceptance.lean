import TemplateExpr.Proofs.Numeral.Reading
import TemplateExpr.Proofs.Source.Opening
/-!
Texts that are numerals. The grammar is unambiguous, a text is accepted if and only if a literal in range
derives it, and the numeral has the number that the literal denotes.
-/
namespace TemplateExpr.Numeral

open Source Scan

theorem reads_unique {α : Type} {scan : Scan α} {u v r r' : List Char} {a b : α}
    (first : Reads scan u a r) (second : Reads scan v b r') (same : u ++ r = v ++ r') : a = b := by
  have left := first 0 0
  rw [same, second 0 0] at left
  exact (EStateM.Result.ok.inj left).1.symm

theorem sign_chars_injective {s s' : Sign} (same : s.chars = s'.chars) : s = s' := by
  cases s <;> cases s' <;> first | rfl | cases same

theorem mantissa_injective {m m' : Mantissa} (digits : m.digits = m'.digits)
    (fraction : m.fraction = m'.fraction) : m = m' := by
  have nonempty : ∀ ds : List Char, Run 10 ds → ds ≠ [] := by
    rintro ds run rfl
    cases run
  cases m with
  | whole ds run =>
    cases m' with
    | whole ds' run' => cases digits; rfl
    | point ds' places' run' tail' => cases fraction
    | bare places' run' => cases fraction
  | point ds places run tail =>
    cases m' with
    | whole ds' run' => cases fraction
    | point ds' places' run' tail' => cases digits; cases fraction; rfl
    | bare places' run' =>
      cases fraction
      exact absurd digits (nonempty ds run)
  | bare places run =>
    cases m' with
    | whole ds' run' => cases fraction
    | point ds' places' run' tail' =>
      cases fraction
      exact absurd digits.symm (nonempty ds' run')
    | bare places' run' => cases fraction; rfl

theorem signed_digits_injective {s s' : Sign} {ds ds' : List Char} (run : Run 10 ds)
    (run' : Run 10 ds') (same : s.chars ++ ds = s'.chars ++ ds') : s = s' ∧ ds = ds' := by
  have signs := sign_chars_injective
    (reads_unique (reads_sign s (noSign_of_run run)) (reads_sign s' (noSign_of_run run')) same)
  subst signs
  exact ⟨rfl, List.append_cancel_left same⟩

theorem exponentChars_injective {e e' : Option Exponent} (same : exponentChars e = exponentChars e') :
    e = e' := by
  cases e with
  | none =>
    cases e' with
    | none => rfl
    | some e' => cases same
  | some e =>
    cases e' with
    | none => cases same
    | some e' =>
      obtain ⟨mark, behind⟩ := List.cons.inj same
      obtain ⟨sign, digits⟩ := signed_digits_injective e.run e'.run behind
      cases e
      cases e'
      simp_all

theorem body_chars_injective {b b' : Body} (same : b.chars = b'.chars) : b = b' := by
  have apart : ∀ (mark : Char) (base : Nat) (digits : List Char) (marks : Marks mark base)
      (run : Run base digits) (m : Mantissa) (e : Option Exponent),
      (Body.marked mark base digits marks run).chars ≠ (Body.decimal m e).chars := by
    intro mark base digits marks run m e same
    refine not_marks_of_isDecimalChar (isDecimalChar_of_body m e mark ?_) base marks
    rw [← same]
    exact List.mem_cons_of_mem _ List.mem_cons_self
  cases b with
  | marked mark base digits marks run =>
    cases b' with
    | marked mark' base' digits' marks' run' =>
      cases same
      have bases := (base?_eq_some_iff.mpr marks).symm.trans (base?_eq_some_iff.mpr marks')
      cases bases
      rfl
    | decimal m' e' => exact absurd same (apart _ _ _ _ _ _ _)
  | decimal m e =>
    cases b' with
    | marked mark' base' digits' marks' run' => exact absurd same.symm (apart _ _ _ _ _ _ _)
    | decimal m' e' =>
      obtain ⟨ends, point⟩ := exponent_ends e ends_nil
      obtain ⟨ends', point'⟩ := exponent_ends e' ends_nil
      simp only [Body.chars, Mantissa.chars, List.append_assoc] at same
      have whole : m.digits = m'.digits :=
        reads_unique (reads_digits m ends) (reads_digits m' ends') (by simpa using same)
      rw [whole] at same
      have behind := List.append_cancel_left same
      have fractions : m.fraction = m'.fraction := by
        have first := reads_fraction m ends point
        rw [whole] at first
        exact reads_unique first (reads_fraction m' ends' point') (by simpa using behind)
      rw [fractions] at behind
      rw [mantissa_injective whole fractions, exponentChars_injective (List.append_cancel_left behind)]

theorem literal_chars_injective {l l' : Literal} (same : l.chars = l'.chars) : l = l' := by
  obtain ⟨sign, body⟩ := l
  obtain ⟨sign', body'⟩ := l'
  have head : ∀ b : Body, b.chars.head?.any isSign = false := by
    intro b
    obtain ⟨c, more, chars, other⟩ := body_head b []
    rw [List.append_nil] at chars
    rw [chars]
    exact other
  have signs := sign_chars_injective
    (reads_unique (reads_sign sign (head body)) (reads_sign sign' (head body')) same)
  subst signs
  have bodies : body = body' := body_chars_injective (List.append_cancel_left same)
  rw [bodies]

theorem literal_ascii (l : Literal) : ∀ c ∈ l.chars, c.toNat < 128 := by
  have decimal : ∀ c, IsDecimalChar c → c.toNat < 128 := by
    intro c h
    rcases h with digit | rfl | rfl | rfl | rfl | rfl | rfl
    · have := (isDigit_iff.mp digit).2
      omega
    all_goals decide
  have letter : ∀ c : Char, c.isAlphanum = true → c.toNat < 128 := by
    intro c h
    rw [isAlphanum_iff] at h
    omega
  obtain ⟨sign, body⟩ := l
  intro c mem
  rcases List.mem_append.mp mem with mem | mem
  · exact decimal c (isDecimalChar_of_sign mem)
  · cases body with
    | decimal m e => exact decimal c (isDecimalChar_of_body m e c mem)
    | marked mark base digits marks run =>
      rcases List.mem_cons.mp mem with rfl | mem
      · decide
      · rcases List.mem_cons.mp mem with rfl | mem
        · exact letter c (isAlphanum_of_marks marks)
        · rcases mem_run run c mem with digit | rfl
          · exact letter c (Digits.isAlphanum_of_isDigitOf digit)
          · decide

theorem onlyReads_fail (fault : NumeralFault) : OnlyReads (fail fault : Scan α) :=
  onlyReads_refuse fun _ => trivial

theorem onlyReads_unexpected : OnlyReads (unexpected : Scan α) := by
  constructor
  · intro s a t h
    unfold unexpected at h
    split at h <;> cases h
  · intro s e t h other
    unfold unexpected at h
    split at h <;> cases h <;> exact absurd trivial other

theorem onlyReads_run (base : Nat) : OnlyReads (run base) := by
  refine onlyReads_repeatWhile ?_
  exact onlyReads_ite onlyReads_unexpected (onlyReads_bind onlyReads_read fun _ => onlyReads_pure _)

theorem onlyReads_optionalRun : OnlyReads optionalRun := by
  refine onlyReads_bind onlyReads_get fun s => ?_
  split
  · exact onlyReads_run 10
  · exact onlyReads_pure _

theorem onlyReads_fraction (whole : List Char) : OnlyReads (fraction whole) := by
  refine onlyReads_bind onlyReads_get fun s => ?_
  have digits : ∀ point : Option Char,
      OnlyReads (do return point.toList ++ (← optionalRun) : Scan (List Char)) :=
    fun point => onlyReads_bind onlyReads_optionalRun fun _ => onlyReads_pure _
  split
  · refine onlyReads_bind onlyReads_read fun point => onlyReads_bind onlyReads_get fun u => ?_
    dsimp only
    split
    · exact onlyReads_bind onlyReads_unexpected fun _ => digits point
    · exact digits point
  · exact onlyReads_pure _

theorem onlyReads_exponent : OnlyReads exponent := by
  refine onlyReads_bind (onlyReads_takeIf _) fun mark => ?_
  split
  · exact onlyReads_pure _
  · refine onlyReads_bind (onlyReads_takeIf _) fun sign => onlyReads_bind onlyReads_get fun s => ?_
    dsimp only
    split
    · refine onlyReads_bind (onlyReads_run 10) fun digits => ?_
      split
      · exact onlyReads_fail _
      · exact onlyReads_pure _
    · exact onlyReads_bind (onlyReads_fail _) fun _ => onlyReads_bind (onlyReads_run 10) fun digits => by
        split
        · exact onlyReads_fail _
        · exact onlyReads_pure _

theorem onlyReads_marked (sign : List Char) (base : Nat) : OnlyReads (marked sign base) := by
  refine onlyReads_bind onlyReads_read fun zero => onlyReads_bind onlyReads_read fun mark =>
    onlyReads_bind onlyReads_get fun s => ?_
  dsimp only
  split
  · exact onlyReads_bind (onlyReads_run base) fun _ => onlyReads_pure _
  · exact onlyReads_bind (onlyReads_fail _) fun _ => onlyReads_bind (onlyReads_run base) fun _ => onlyReads_pure _

theorem onlyReads_unmarked (sign : List Char) : OnlyReads (unmarked sign) := by
  refine onlyReads_bind onlyReads_optionalRun fun whole => onlyReads_bind (onlyReads_fraction whole) fun written => ?_
  dsimp only
  split
  · refine onlyReads_bind onlyReads_unexpected fun _ => onlyReads_bind onlyReads_exponent fun last => ?_
    split
    · exact onlyReads_fail _
    · exact onlyReads_pure _
  · refine onlyReads_bind onlyReads_exponent fun last => ?_
    split
    · exact onlyReads_fail _
    · exact onlyReads_pure _

theorem onlyReads_scan : OnlyReads scan := by
  refine onlyReads_bind (onlyReads_takeIf _) fun sign => onlyReads_bind onlyReads_get fun s => ?_
  split
  · exact onlyReads_marked _ _
  · exact onlyReads_unmarked _

theorem spelled_append_eq (a b : List Char) :
    spelled 10 (a ++ b) = spelled 10 a * tenPow (withoutSeparators b).length + spelled 10 b := by
  rw [spelled, withoutSeparators, List.filter_append, List.foldl_append, Digits.foldl_push]
  rfl

theorem cast_apply (sign : Sign) (n : Int) :
    ((sign.apply n : Int) : ℚ) = if sign = .minus then -(n : ℚ) else n := by
  unfold Sign.apply
  split
  · rw [Int.cast_neg]
  · rfl

theorem yields_value {l : Literal} {d : Decimal} (h : Yields l d) :
    d.IsNormal ∧ d.toRat = l.toRat := by
  obtain ⟨sign, body⟩ := l
  cases body with
  | marked mark base digits marks run =>
    cases h
    refine ⟨Decimal.isNormal_ofInt _, ?_⟩
    rw [Decimal.toRat_ofInt, cast_apply, Int.cast_natCast]
    rfl
  | decimal m e =>
    obtain ⟨_, _, result⟩ := h
    refine ⟨Decimal.isNormal_checked result, ?_⟩
    have magnitude : (spelled 10 (m.digits ++ m.places) : ℚ) * 10 ^ (-(m.size : Int)) = m.toRat := by
      rw [spelled_append_eq, Nat.cast_add, Nat.cast_mul, Decimal.cast_tenPow, ← Mantissa.size,
        zpow_neg, zpow_natCast, Mantissa.toRat]
      field_simp
    have power : (10 : ℚ) ^ (-((m.size : Int) - exponentPower e)) =
        10 ^ (-(m.size : Int)) * 10 ^ exponentPower e := by
      rw [← zpow_add₀ (by norm_num), neg_sub, sub_eq_add_neg, add_comm]
    rw [Decimal.toRat_checked result, Literal.unscaled, cast_apply, Int.cast_natCast, power,
      Literal.toRat, Body.toRat, ← magnitude]
    dsimp only
    split <;> ring

def Literal.Spells (l : Literal) (n : Numeral) : Prop :=
  n.value.IsNormal ∧ n.value.toRat = l.toRat ∧ n.text.toList = l.chars ∧ (n.plain = true ↔ l.IsPlain)

theorem spells_numeral {l : Literal} {d : Decimal} (value : Yields l d) :
    l.Spells (l.numeral d) := by
  obtain ⟨normal, number⟩ := yields_value value
  exact ⟨normal, number, String.toList_ofList, l.plain_iff⟩

theorem spells_unique {l : Literal} {n n' : Numeral} (first : l.Spells n) (second : l.Spells n') :
    n = n' := by
  obtain ⟨value, text, plain⟩ := n
  obtain ⟨value', text', plain'⟩ := n'
  obtain ⟨normal, number, chars, bare⟩ := first
  obtain ⟨normal', number', chars', bare'⟩ := second
  have values : value = value' := Decimal.toRat_injective normal normal' (number.trans number'.symm)
  have texts : text = text' := String.toList_inj.mp (chars.trans chars'.symm)
  have plains : plain = plain' := Bool.eq_iff_iff.mpr (bare.trans bare'.symm)
  rw [values, texts, plains]

theorem scanAll_ok {s t : Source} {n : Numeral} (h : scanAll s = .ok n t) :
    scan s = .ok n t ∧ t.atEnd = true := by
  obtain ⟨m, u, first, h⟩ := bind_ok h
  rw [run_get_bind] at h
  by_cases done : u.atEnd = true
  · rw [if_pos done] at h
    cases h
    exact ⟨first, done⟩
  · rw [if_neg done] at h
    obtain ⟨_, _, bad, _⟩ := bind_ok h
    unfold unexpected at bad
    split at bad <;> cases bad

theorem ofText_eq_ok_iff {text : String} {n : Numeral} :
    ofText text = .ok n ↔
      ∃ s t, Source.ofText text.utf8ByteSize text = .ok s ∧ scanAll s = .ok n t := by
  unfold ofText
  cases opened : Source.ofText text.utf8ByteSize text with
  | error e =>
    constructor
    · intro h
      cases h
    · rintro ⟨s, t, h, _⟩
      cases h
  | ok s =>
    cases scanned : scanAll s with
    | error e t =>
      constructor
      · intro h
        simp [Bind.bind, Except.bind, scanned, throw, throwThe, MonadExceptOf.throw] at h
      · rintro ⟨s', t', h, result⟩
        cases h
        rw [scanned] at result
        cases result
    | ok m t =>
      constructor
      · intro h
        simp only [Bind.bind, Except.bind, scanned, pure, Except.pure, Except.ok.injEq] at h
        subst h
        exact ⟨s, t, rfl, scanned⟩
      · rintro ⟨s', t', h, result⟩
        cases h
        rw [scanned] at result
        cases result
        simp [Bind.bind, Except.bind, scanned, pure, Except.pure]

theorem ofText_sound_chars {text : String} {n : Numeral} (h : ofText text = .ok n) :
    ∀ c ∈ text.toList, c.toNat ≠ 0xFFFF := by
  intro c mem bad
  obtain ⟨s, t, opened, scanned⟩ := ofText_eq_ok_iff.mp h
  obtain ⟨moved, done⟩ := scanAll_ok scanned
  have ahead := ofText_reservedAhead (Nat.le_refl _) mem bad opened
  have current := (barredAhead_reaches (barredAhead_of_reserved ahead) (onlyReads_scan.moves s n t moved)).2.1
  rw [atEnd, Option.isNone_iff_eq_none] at done
  rw [done] at current
  cases current

theorem literal_of_ofText {text : String} {n : Numeral} (h : ofText text = .ok n) :
    ∃ l : Literal, l.chars = text.toList ∧ l.InRange ∧ l.Spells n := by
  have sound := ofText_sound_chars h
  obtain ⟨s, t, opened, scanned⟩ := ofText_eq_ok_iff.mp h
  cases (ofText_before (Nat.le_max_left ..) sound).symm.trans opened
  obtain ⟨moved, done⟩ := scanAll_ok scanned
  obtain ⟨l, rest, value, same, chars, rfl⟩ := scan_sound moved
  rw [atEnd_before, List.isEmpty_iff] at done
  rw [done, List.append_nil] at chars
  exact ⟨l, chars.symm, (inRange_iff l).mpr ⟨n.value, value⟩, same ▸ spells_numeral value⟩

theorem ofText_of_yields {text : String} {l : Literal} {d : Decimal} (chars : l.chars = text.toList)
    (value : Yields l d) : ofText text = .ok (l.numeral d) := by
  have sound : ∀ c ∈ text.toList, c.toNat ≠ 0xFFFF := by
    intro c mem
    have ascii := literal_ascii l c (chars ▸ mem)
    omega
  have read := reads_scan value ends_nil (max text.utf8ByteSize minLimit) 1
  rw [List.append_nil, chars] at read
  exact ofText_eq_ok_iff.mpr ⟨_, _, ofText_before (Nat.le_max_left ..) sound, run_bind read⟩

/-- A text is a numeral if and only if a literal in range derives it; the numeral is the one that the literal
spells. -/
theorem ofText_ok_iff (text : String) :
    ((∃ n, ofText text = .ok n) ↔ ∃ l : Literal, l.chars = text.toList ∧ l.InRange) ∧
      ∀ n, ofText text = .ok n ↔
        ∃ l : Literal, l.chars = text.toList ∧ l.InRange ∧ l.Spells n := by
  constructor
  · constructor
    · rintro ⟨n, h⟩
      obtain ⟨l, chars, range, _⟩ := literal_of_ofText h
      exact ⟨l, chars, range⟩
    · rintro ⟨l, chars, range⟩
      obtain ⟨d, value⟩ := (inRange_iff l).mp range
      exact ⟨l.numeral d, ofText_of_yields chars value⟩
  · intro n
    constructor
    · exact literal_of_ofText
    · rintro ⟨l, chars, range, spells⟩
      obtain ⟨d, value⟩ := (inRange_iff l).mp range
      rw [ofText_of_yields chars value, spells_unique spells (spells_numeral value)]

end TemplateExpr.Numeral
