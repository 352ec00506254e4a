import TemplateExpr.Proofs.Properties.Escaping
/-!
Unicode escapes. Decoding takes a text piece by piece: a character, a backslash with a letter, or a backslash with
a `u` and the four characters behind it. Which of these codes are decoded is said exactly: four hexadecimal digits
that name a character, but also fewer of them in front of the end, and some behind a plus sign.
-/
namespace TemplateExpr.Properties

structure Spells (digits : List Char) (c : Char) : Prop where
  nonempty : digits ≠ []
  hexadecimal : ∀ d ∈ digits, Digits.isDigitOf 16 d = true
  number : Digits.valueIn 16 digits = c.toNat

def FourDigits (cs : List Char) (c : Char) : Prop := cs.length = 4 ∧ Spells cs c

/-- Other codes that are taken for the number of a character: the text ends before the fourth digit, or a plus sign
stands in front of the digits. -/
inductive LaxCode : List Char → Char → Prop where
  | short {digits : List Char} {c : Char} (few : digits.length < 4) (spells : Spells digits c) : LaxCode digits c
  | signed {digits : List Char} {c : Char} (spells : Spells digits c) : LaxCode ('+' :: digits) c

/-- A text behind which decoding stands between two pieces. Its last backslash is not left alone, nor is its last
code short of four characters. -/
inductive Whole : List Char → Prop where
  | nil : Whole []
  | sign {c : Char} (not_backslash : c ≠ '\\') {rest : List Char} (more : Whole rest) : Whole (c :: rest)
  | letter {c : Char} (not_code : c ≠ 'u') {rest : List Char} (more : Whole rest) : Whole ('\\' :: c :: rest)
  | code {cs : List Char} (four : cs.length = 4) {rest : List Char} (more : Whole rest) :
    Whole ('\\' :: 'u' :: (cs ++ rest))

/-! ### Codes -/

theorem spells_iff {digits : List Char} {c : Char} :
    (if digits ≠ [] ∧ digits.all (Digits.isDigitOf 16) = true ∧ (Digits.valueIn 16 digits).isValidChar then
      some (Char.ofNat (Digits.valueIn 16 digits)) else none) = some c ↔ Spells digits c := by
  constructor
  · intro named
    split at named
    · rename_i digital
      obtain ⟨nonempty, all, valid⟩ := digital
      refine ⟨nonempty, List.all_eq_true.mp all, ?_⟩
      rw [← Option.some.inj named, Char.ofNat, dif_pos valid]
      rfl
    · cases named
  · rintro ⟨nonempty, all, number⟩
    rw [number, Char.ofNat_toNat]
    exact if_pos ⟨nonempty, List.all_eq_true.mpr all, c.valid⟩

theorem not_spells_plus (digits : List Char) (c : Char) : ¬ Spells ('+' :: digits) c := by
  intro spells
  have digit := spells.hexadecimal '+' List.mem_cons_self
  revert digit
  decide

theorem hexChar?_eq_some_iff {cs : List Char} {c : Char} (few : cs.length ≤ 4) :
    hexChar? cs = some c ↔ FourDigits cs c ∨ LaxCode cs c := by
  unfold hexChar?
  dsimp only
  split
  · rename_i digits
    rw [spells_iff]
    constructor
    · intro spells
      exact .inr (.signed spells)
    · rintro (⟨_, spells⟩ | @(⟨_, spells⟩ | ⟨spells⟩))
      · exact absurd spells (not_spells_plus digits c)
      · exact absurd spells (not_spells_plus digits c)
      · exact spells
  · rename_i unsigned
    rw [spells_iff]
    constructor
    · intro spells
      rcases Nat.lt_or_eq_of_le few with fewer | four
      · exact .inr (.short fewer spells)
      · exact .inl ⟨four, spells⟩
    · rintro (⟨_, spells⟩ | @(⟨_, spells⟩ | ⟨_⟩))
      · exact spells
      · exact spells
      · exact absurd rfl (unsigned _)

/-! ### Pieces -/

theorem unescape_letter {c : Char} (not_code : c ≠ 'u') :
    ∃ d, ∀ rest, unescape ('\\' :: c :: rest) = d :: unescape rest := by
  by_cases tab : c = 't'
  · exact ⟨_, tab ▸ unescape.eq_3⟩
  by_cases feed : c = 'n'
  · exact ⟨_, feed ▸ unescape.eq_4⟩
  by_cases carriage : c = 'r'
  · exact ⟨_, carriage ▸ unescape.eq_5⟩
  by_cases form : c = 'f'
  · exact ⟨_, form ▸ unescape.eq_6⟩
  · exact ⟨c, fun rest => unescape.eq_8 c rest tab feed carriage form not_code⟩

def decoded (cs : List Char) : List Char :=
  match hexChar? cs with
  | some c => [c]
  | none => '\\' :: 'u' :: cs

theorem unescape_u (rest : List Char) :
    unescape ('\\' :: 'u' :: rest) = decoded (rest.take 4) ++ unescape (rest.drop 4) := unescape.eq_7 rest

theorem unescape_append {front : List Char} (whole : Whole front) (rest : List Char) :
    unescape (front ++ rest) = unescape front ++ unescape rest := by
  induction whole with
  | nil => rw [unescape.eq_1, List.nil_append, List.nil_append]
  | sign not_backslash _ ih =>
    rw [List.cons_append, unescape_sign not_backslash, unescape_sign not_backslash, ih, List.cons_append]
  | letter not_code _ ih =>
    obtain ⟨d, gives⟩ := unescape_letter not_code
    rw [List.cons_append, List.cons_append, gives, gives, ih, List.cons_append]
  | @code cs four behind _ ih =>
    rw [List.cons_append, List.cons_append, List.append_assoc, unescape_u, unescape_u, List.take_left' four,
      List.take_left' four, List.drop_left' four, List.drop_left' four, ih, List.append_assoc]

/-- Behind whole pieces, a code is replaced by a character if its first four characters are the digits of that
character, and also if it is a lax code for it. Every other code stays with the up to four characters that were taken
for it. -/
theorem unescape_code {front : List Char} (whole : Whole front) (rest : List Char) :
    (∀ c, unescape (front ++ '\\' :: 'u' :: rest) = unescape front ++ c :: unescape (rest.drop 4) ↔
      FourDigits (rest.take 4) c ∨ LaxCode (rest.take 4) c) ∧
    ((∀ c, ¬ FourDigits (rest.take 4) c ∧ ¬ LaxCode (rest.take 4) c) →
      unescape (front ++ '\\' :: 'u' :: rest) =
        unescape front ++ '\\' :: 'u' :: (rest.take 4 ++ unescape (rest.drop 4))) := by
  have few : (rest.take 4).length ≤ 4 := List.length_take_le 4 rest
  rw [unescape_append whole, unescape_u]
  cases named : hexChar? (rest.take 4) with
  | some d =>
    have names (c : Char) : d = c ↔ FourDigits (rest.take 4) c ∨ LaxCode (rest.take 4) c := by
      rw [← hexChar?_eq_some_iff few, named, Option.some_inj]
    constructor
    · intro c
      rw [← names, decoded, named, List.append_cancel_left_eq, List.singleton_append, List.cons_eq_cons, and_iff_left rfl]
    · intro unnamed
      rcases (names d).mp rfl with four | lax
      · exact absurd four (unnamed d).1
      · exact absurd lax (unnamed d).2
  | none =>
    rw [decoded, named]
    constructor
    · intro c
      rw [← hexChar?_eq_some_iff few, named]
      constructor
      · intro same
        -- the code that stays is longer than a character in its place
        have lengths := congrArg List.length same
        simp at lengths
        omega
      · intro none
        cases none
    · intro _
      rfl

/-- Behind an escaped backslash, and in front of another character. -/
theorem unescape_code_signed :
    Whole ['\\', '\\', 'u'] ∧
      unescape ['\\', '\\', 'u', '\\', 'u', '+', '0', '4', '1', 'x'] = ['\\', 'u', 'A', 'x'] := by
  have whole : Whole ['\\', '\\', 'u'] := .letter (by decide) (.sign (by decide) .nil)
  have spells : Spells ['0', '4', '1'] 'A' := ⟨by decide, List.all_eq_true.mp (by decide), by decide⟩
  have decodes := ((unescape_code whole ['+', '0', '4', '1', 'x']).1 'A').mpr (.inr (.signed spells))
  refine ⟨whole, decodes.trans ?_⟩
  simp [unescape]

/-- Neither four characters nor four digits are needed for a code to be decoded. -/
theorem unescape_lax_codes :
    (unescape ['\\', 'u', '4', '1'] = ['A'] ∧ ¬ ∃ c, FourDigits ['4', '1'] c) ∧
      unescape ['\\', 'u', '+', '0', '4', '1'] = ['A'] ∧ ¬ ∃ c, FourDigits ['+', '0', '4', '1'] c := by
  refine ⟨⟨?_, ?_⟩, ?_, ?_⟩
  · rw [unescape_u, List.drop_of_length_le (by decide), unescape.eq_1]
    decide
  · rintro ⟨c, four, _⟩
    cases four
  · rw [unescape_u, List.drop_of_length_le (by decide), unescape.eq_1]
    decide
  · rintro ⟨c, _, spells⟩
    exact not_spells_plus _ c spells

end TemplateExpr.Properties
