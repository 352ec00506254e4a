import TemplateExpr.Proofs.Timestamp.Parts
import Mathlib.Data.Option.Basic
/-!
How timestamps are spelled. Each field may stand behind one of its separators or directly behind the field before it,
and any number of spaces in front of the zone. A spelling is read as what it spells, unless a zone with a minus stands
directly behind the year or the month: what looks like the next field is read as that.
-/
namespace TemplateExpr.Timestamp

def IsPair (cs : List Char) : Prop := ∃ a b, cs = [a, b] ∧ isScriptDigit a = true ∧ isScriptDigit b = true

def SeparatorSpelled (marks mark : List Char) : Prop := mark = [] ∨ ∃ c ∈ marks, mark = [c]

inductive SignSpelled : Bool → List Char → Prop where
  | none : SignSpelled false []
  | plus : SignSpelled false ['+']
  | minus : SignSpelled true ['-']

inductive FieldsSpelled : List (List Char) → List (List Char) → List Char → Prop where
  | none {allowed : List (List Char)} : FieldsSpelled allowed [] []
  | field {marks mark field rest : List Char} {more fields : List (List Char)}
      (separator : SeparatorSpelled marks mark) (pair : IsPair field)
      (behind : FieldsSpelled more fields rest) :
      FieldsSpelled (marks :: more) (field :: fields) (mark ++ (field ++ rest))

/-- One to nine digits behind a point or a comma, if nothing is missing before them. -/
inductive FractionSpelled (complete : Prop) : List Char → List Char → Prop where
  | none : FractionSpelled complete [] []
  | digits {mark : Char} {digits : List Char} (whole : complete) (point : mark = '.' ∨ mark = ',')
      (present : digits ≠ []) (few : digits.length ≤ 9) (digital : ∀ d ∈ digits, isScriptDigit d = true) :
      FractionSpelled complete digits (mark :: digits)

inductive ZoneSpelled : Option WrittenZone → List Char → Prop where
  | none : ZoneSpelled none []
  | utc {c : Char} (letter : c = 'Z' ∨ c = 'z') : ZoneSpelled Option.none [c]
  | hours {sign : Char} {hours : List Char} (isSign : sign = '+' ∨ sign = '-') (pair : IsPair hours) :
      ZoneSpelled (some ⟨sign = '-', hours, []⟩) (sign :: hours)
  | minutes {sign : Char} {hours colon minutes : List Char} (isSign : sign = '+' ∨ sign = '-') (pair : IsPair hours)
      (separator : SeparatorSpelled [':'] colon) (pair' : IsPair minutes) :
      ZoneSpelled (some ⟨sign = '-', hours, minutes⟩) (sign :: (hours ++ (colon ++ minutes)))

structure Spelling (w : Written) where
  sign : List Char
  fields : List Char
  fraction : List Char
  spaces : Nat
  zone : List Char
  sign_spelled : SignSpelled w.negative sign
  year_length : w.year.length = 4
  year_digits : ∀ c ∈ w.year, isScriptDigit c = true
  fields_spelled : FieldsSpelled separators w.fields fields
  fraction_spelled : FractionSpelled (w.fields.length = separators.length) w.fraction fraction
  zone_spelled : ZoneSpelled w.zone zone

namespace Spelling

variable {w : Written}

def ending (s : Spelling w) : List Char := List.replicate s.spaces ' ' ++ s.zone

def body (s : Spelling w) : List Char := s.sign ++ (w.year ++ (s.fields ++ s.fraction))

def chars (s : Spelling w) : List Char := s.body ++ s.ending

/-- A zone with a minus, where a month or a day might follow. -/
def Ambiguous (s : Spelling w) : Prop := w.fields.length < 2 ∧ s.spaces = 0 ∧ s.zone.head? = some '-'

theorem exists_year (s : Spelling w) : ∃ c more, w.year = c :: more ∧ isScriptDigit c = true := by
  obtain ⟨c, more, year⟩ := List.exists_cons_of_length_pos (l := w.year) (by rw [s.year_length]; decide)
  exact ⟨c, more, year, s.year_digits c (year ▸ List.mem_cons_self)⟩

end Spelling

/-! ### Spellings are read -/

section Reading

variable {negative : Bool} {year : List Char}

theorem twoDigits?_pair {pair : List Char} (isPair : IsPair pair) (rest : List Char) :
    twoDigits? (pair ++ rest) = some (pair, rest) := by
  obtain ⟨a, b, rfl, first, second⟩ := isPair
  simp [twoDigits?, first, second]

theorem twoDigits?_of_head {cs : List Char} (head : ∀ c ∈ cs.head?, isScriptDigit c = false) :
    twoDigits? cs = none := by
  match cs with
  | [] => rfl
  | [_] => rfl
  | a :: b :: _ => simp [twoDigits?, head a rfl]

theorem separator_of_mem {marks : List Char} (mem : marks ∈ separators) {c : Char} (mark : c ∈ marks) :
    c = '-' ∨ c = 'T' ∨ c = ' ' ∨ c = ':' := by
  have places : separators.flatten ⊆ ['-', 'T', ' ', ':'] := by decide
  simpa using places (List.mem_flatten_of_mem mem mark)

theorem not_mem_of_isScriptDigit {marks : List Char} (mem : marks ∈ separators) {c : Char}
    (digit : isScriptDigit c = true) : c ∉ marks := by
  intro mark
  rcases separator_of_mem mem mark with rfl | rfl | rfl | rfl <;> exact absurd digit (by decide)

theorem dropSeparator_spelled {marks mark field : List Char} (allowed : marks ∈ separators)
    (separator : SeparatorSpelled marks mark) (pair : IsPair field) (rest : List Char) :
    dropSeparator marks (mark ++ (field ++ rest)) = field ++ rest := by
  rcases separator with rfl | ⟨c, mem, rfl⟩
  · obtain ⟨a, b, rfl, digit, _⟩ := pair
    exact dropSeparator_of_not_mem (not_mem_of_isScriptDigit allowed digit) _
  · exact dropSeparator_of_mem mem _

theorem fields?_spelled {allowed fields : List (List Char)} {cs rest : List Char} {w : Written}
    (spelled : FieldsSpelled allowed fields cs) (known : allowed ⊆ separators)
    (behind : fields? negative year (allowed.drop fields.length) rest = some w) :
    fields? negative year allowed (cs ++ rest) = some { w with fields := fields ++ w.fields } := by
  induction spelled with
  | none => exact behind
  | @field marks mark field cs more fields separator pair _ ih =>
    obtain ⟨mem, later⟩ := List.cons_subset.mp known
    rw [fields?, List.append_assoc, List.append_assoc, dropSeparator_spelled mem separator pair,
      twoDigits?_pair pair]
    simp [ih later behind]

theorem zone?_spelled {zone : Option WrittenZone} {cs : List Char} (spelled : ZoneSpelled zone cs) :
    zone? cs = some zone := by
  cases spelled with
  | none => rfl
  | utc letter => rcases letter with rfl | rfl <;> rfl
  | @hours sign hours isSign pair =>
    have read := twoDigits?_pair pair []
    rw [List.append_nil] at read
    rcases isSign with rfl | rfl <;> simp [zone?, read]
  | @minutes sign hours colon minutes isSign pair separator pair' =>
    have read := twoDigits?_pair pair (colon ++ minutes)
    have read' := twoDigits?_pair pair' []
    have dropped := dropSeparator_spelled (List.mem_of_getElem? (i := 3) rfl) separator pair' []
    rw [List.append_nil] at read' dropped
    obtain ⟨c, more, behind⟩ : ∃ c more, colon ++ minutes = c :: more := by
      refine List.exists_cons_of_ne_nil fun none => ?_
      obtain ⟨a, b, rfl, _⟩ := pair'
      exact List.cons_ne_nil a [b] (List.append_eq_nil_iff.mp none).2
    rw [behind] at read dropped ⊢
    rcases isSign with rfl | rfl <;> simp [zone?, read, dropped, read']

/-! ### The end of a spelling -/

section Ending
variable {zone : Option WrittenZone} {cs : List Char} (spelled : ZoneSpelled zone cs)
include spelled

theorem head_of_zone {c : Char} (head : cs.head? = some c) :
    c = 'Z' ∨ c = 'z' ∨ c = '+' ∨ c = '-' := by
  cases spelled with
  | none => cases head
  | utc letter =>
    cases head
    exact letter.imp_right .inl
  | hours isSign _ =>
    cases head
    exact .inr (.inr isSign)
  | minutes isSign _ _ _ =>
    cases head
    exact .inr (.inr isSign)

theorem finish?_spelled (spaces : Nat) (fraction : List Char) :
    finish? negative year fraction (List.replicate spaces ' ' ++ cs) = some ⟨negative, year, [], fraction, zone⟩ := by
  have stop : cs.dropWhile (· == ' ') = cs := by
    cases first : cs with
    | nil => rfl
    | cons c rest =>
      refine List.dropWhile_cons_of_neg ?_
      rcases head_of_zone spelled (congrArg List.head? first) with rfl | rfl | rfl | rfl <;> decide
  have dropped : (List.replicate spaces ' ' ++ cs).dropWhile (· == ' ') = cs := by
    rw [List.dropWhile_append_of_pos (fun c mem => beq_iff_eq.mpr (List.mem_replicate.mp mem).2), stop]
  rw [finish?, dropped, zone?_spelled spelled]
  rfl

theorem head_of_ending {spaces : Nat} {c : Char} (head : (List.replicate spaces ' ' ++ cs).head? = some c) :
    c = ' ' ∨ c = 'Z' ∨ c = 'z' ∨ c = '+' ∨ c = '-' := by
  cases spaces with
  | zero => exact .inr (head_of_zone spelled head)
  | succ spaces =>
    cases head
    exact .inl rfl

theorem ending_not_digit {spaces : Nat} {c : Char} (head : (List.replicate spaces ' ' ++ cs).head? = some c) :
    isScriptDigit c = false := by
  rcases head_of_ending spelled head with rfl | rfl | rfl | rfl | rfl <;> decide

theorem twoDigits?_ending {spaces : Nat} {marks : List Char} (known : marks ∈ separators)
    (apart : '-' ∈ marks → ¬ (spaces = 0 ∧ cs.head? = some '-')) :
    twoDigits? (dropSeparator marks (List.replicate spaces ' ' ++ cs)) = none := by
  cases spaces with
  | zero =>
    have solid {c : Char} : cs.head? = some c → isScriptDigit c = false := @ending_not_digit _ _ spelled 0 c
    rw [List.replicate_zero, List.nil_append]
    cases cs with
    | nil => rfl
    | cons c rest =>
      have kept : c ∉ marks := by
        intro mark
        have places := separator_of_mem known mark
        rcases head_of_zone spelled rfl with rfl | rfl | rfl | rfl
        · simp at places
        · simp at places
        · simp at places
        · exact apart mark ⟨rfl, rfl⟩
      rw [dropSeparator_of_not_mem kept]
      exact twoDigits?_of_head fun _ head => solid head
  | succ spaces =>
    rw [List.replicate_succ, List.cons_append]
    by_cases mark : ' ' ∈ marks
    · -- the space in front of the hour, behind which there are again spaces and the zone
      rw [dropSeparator_of_mem mark]
      exact twoDigits?_of_head fun _ head => ending_not_digit spelled head
    · rw [dropSeparator_of_not_mem mark]
      refine twoDigits?_of_head ?_
      rintro c ⟨⟩
      decide

theorem fraction?_ending (spaces : Nat) :
    fraction? negative year (List.replicate spaces ' ' ++ cs) =
      finish? negative year [] (List.replicate spaces ' ' ++ cs) := by
  cases ending : List.replicate spaces ' ' ++ cs with
  | nil => rfl
  | cons c rest =>
    have point : ¬ (c = '.' ∨ c = ',') := by
      rcases head_of_ending spelled (congrArg List.head? ending) with rfl | rfl | rfl | rfl | rfl <;> decide
    exact if_neg fun all => point all.1

theorem fraction?_spelled {complete : Prop} {digits fraction : List Char}
    (written : FractionSpelled complete digits fraction) (spaces : Nat) :
    fraction? negative year (fraction ++ (List.replicate spaces ' ' ++ cs)) =
      some ⟨negative, year, [], digits, zone⟩ := by
  cases written with
  | none => exact (fraction?_ending spelled spaces).trans (finish?_spelled spelled spaces [])
  | @digits mark digits _ point present few digital =>
    have taken : (digits ++ (List.replicate spaces ' ' ++ cs)).takeWhile isScriptDigit = digits := by
      rw [List.takeWhile_append_of_pos digital]
      cases ending : List.replicate spaces ' ' ++ cs with
      | nil => exact List.append_nil digits
      | cons c rest =>
        rw [List.takeWhile_cons_of_neg (by simp [ending_not_digit spelled (congrArg List.head? ending)]),
          List.append_nil]
    rw [List.cons_append, fraction?, taken, List.take_of_length_le few, if_pos ⟨point, present⟩, List.drop_left]
    exact finish?_spelled spelled spaces digits

end Ending

theorem written?_sign {sign cs : List Char} (spelled : SignSpelled negative sign)
    (head : ∀ c ∈ cs.head?, isScriptDigit c = true) : written? (sign ++ cs) = year? negative cs := by
  cases spelled with
  | none =>
    rw [List.nil_append]
    unfold written?
    split
    · exact absurd (head '-' rfl) (by decide)
    · exact absurd (head '+' rfl) (by decide)
    · rfl
  | plus => rfl
  | minus => rfl

theorem year?_digits (length : year.length = 4) (digits : ∀ c ∈ year, isScriptDigit c = true) (rest : List Char) :
    year? negative (year ++ rest) = fields? negative year separators rest := by
  have front : (year ++ rest).take 4 = year := List.take_left' length
  have back : (year ++ rest).drop 4 = rest := List.drop_left' length
  rw [year?, front, back]
  exact if_pos ⟨length, List.all_eq_true.mpr digits⟩

theorem fraction_absent {complete : Prop} {digits fraction : List Char}
    (written : FractionSpelled complete digits fraction) (missing : ¬ complete) : digits = [] ∧ fraction = [] := by
  cases written with
  | none => exact ⟨rfl, rfl⟩
  | digits whole _ _ _ _ => exact absurd whole missing

theorem length_fraction {complete : Prop} {digits cs : List Char} (spelled : FractionSpelled complete digits cs) :
    digits.length ≤ 9 := by
  cases spelled with
  | none => exact Nat.zero_le 9
  | digits _ _ _ few _ => exact few

theorem early_of_minus {n : Nat} {marks : List Char} (place : separators[n]? = some marks) (minus : '-' ∈ marks) :
    n < 2 := by
  match n with
  | 0 | 1 => decide
  | 2 | 3 | 4 =>
    cases place
    exact absurd minus (by decide)
  | n + 5 => cases place

variable {w : Written}

theorem fields?_missing (s : Spelling w) (apart : ¬ s.Ambiguous) :
    fields? negative year (separators.drop w.fields.length) (s.fraction ++ s.ending) =
      some ⟨negative, year, [], w.fraction, w.zone⟩ := by
  cases left : separators.drop w.fields.length with
  | nil => exact fraction?_spelled s.zone_spelled s.fraction_spelled s.spaces
  | cons marks more =>
    have incomplete : ¬ w.fields.length = separators.length := by
      intro complete
      rw [complete, List.drop_length] at left
      cases left
    obtain ⟨noDigits, nothing⟩ := fraction_absent s.fraction_spelled incomplete
    have place : separators[w.fields.length]? = some marks := by
      rw [← List.head?_drop, left]
      rfl
    have none := twoDigits?_ending s.zone_spelled (List.mem_of_getElem? place)
      fun minus zone => apart ⟨early_of_minus place minus, zone⟩
    rw [nothing, noDigits, List.nil_append, fields?, Spelling.ending, none, finish?_spelled s.zone_spelled]
    rfl

theorem written?_chars (s : Spelling w) (apart : ¬ s.Ambiguous) : written? s.chars = some w := by
  obtain ⟨c, more, year, digit⟩ := s.exists_year
  have head : ∀ d ∈ (w.year ++ (s.fields ++ (s.fraction ++ s.ending))).head?, isScriptDigit d = true := by
    rw [year]
    rintro d ⟨⟩
    exact digit
  have missing : fields? w.negative w.year (separators.drop w.fields.length) (s.fraction ++ s.ending) =
      some ⟨w.negative, w.year, [], w.fraction, w.zone⟩ := fields?_missing s apart
  have fields := fields?_spelled s.fields_spelled (List.Subset.refl _) missing
  rw [Spelling.chars, Spelling.body, List.append_assoc, List.append_assoc, List.append_assoc,
    written?_sign s.sign_spelled head, year?_digits s.year_length s.year_digits, fields, List.append_nil]

end Reading

/-! ### What is read is spelled -/

section Sound

variable {cs : List Char}

theorem twoDigits?_sound {pair rest : List Char} (read : twoDigits? cs = some (pair, rest)) :
    IsPair pair ∧ cs = pair ++ rest := by
  unfold twoDigits? at read
  split at read
  · rename_i a b more
    split at read
    · rename_i digits
      cases read
      rw [Bool.and_eq_true] at digits
      exact ⟨⟨a, b, rfl, digits⟩, rfl⟩
    · cases read
  · cases read

theorem dropSeparator_sound (marks cs : List Char) :
    ∃ mark, SeparatorSpelled marks mark ∧ cs = mark ++ dropSeparator marks cs := by
  cases cs with
  | nil => exact ⟨[], .inl rfl, rfl⟩
  | cons c rest =>
    by_cases mem : c ∈ marks
    · exact ⟨[c], .inr ⟨c, mem, rfl⟩, by rw [dropSeparator_of_mem mem]; rfl⟩
    · exact ⟨[], .inl rfl, by rw [dropSeparator_of_not_mem mem]; rfl⟩

theorem zone?_sound {zone : Option WrittenZone} (read : zone? cs = some zone) : ZoneSpelled zone cs := by
  unfold zone? at read
  split at read
  · cases read
    exact .none
  · cases read
    exact .utc (.inl rfl)
  · cases read
    exact .utc (.inr rfl)
  · rename_i sign rest _ _
    split at read
    · rename_i isSign
      split at read
      · cases read
      · rename_i hours found
        cases read
        obtain ⟨pair, rfl⟩ := twoDigits?_sound found
        rw [List.append_nil]
        exact .hours isSign pair
      · rename_i hours more _ found
        split at read
        · rename_i minutes found'
          cases read
          obtain ⟨pair, rfl⟩ := twoDigits?_sound found
          obtain ⟨pair', same⟩ := twoDigits?_sound found'
          obtain ⟨colon, separator, split⟩ := dropSeparator_sound [':'] more
          rw [split, same, List.append_nil]
          exact .minutes isSign pair separator pair'
        · cases read
    · cases read

theorem finish?_sound {negative : Bool} {year fraction : List Char} {w : Written}
    (read : finish? negative year fraction cs = some w) :
    w = ⟨negative, year, [], fraction, w.zone⟩ ∧
      ∃ spaces zone, cs = List.replicate spaces ' ' ++ zone ∧ ZoneSpelled w.zone zone := by
  obtain ⟨zone, found, rfl⟩ := Option.map_eq_some_iff.mp read
  refine ⟨rfl, (cs.takeWhile (· == ' ')).length, cs.dropWhile (· == ' '), ?_, zone?_sound found⟩
  have blank : cs.takeWhile (· == ' ') = List.replicate (cs.takeWhile (· == ' ')).length ' ' :=
    List.eq_replicate_iff.mpr
      ⟨rfl, fun c mem => beq_iff_eq.mp (List.all_eq_true.mp List.all_takeWhile c mem)⟩
  rw [← blank, List.takeWhile_append_dropWhile]

variable {negative : Bool} {year : List Char} {w : Written}

def EndSpelled (complete : Prop) (digits : List Char) (written : Option WrittenZone) (cs : List Char) : Prop :=
  ∃ fraction spaces zone, cs = fraction ++ (List.replicate spaces ' ' ++ zone) ∧
    FractionSpelled complete digits fraction ∧ ZoneSpelled written zone

theorem endSpelled_of_finish? (complete : Prop) (read : finish? negative year [] cs = some w) :
    w = ⟨negative, year, [], w.fraction, w.zone⟩ ∧ EndSpelled complete w.fraction w.zone cs := by
  obtain ⟨parts, spaces, zone, split, spelled⟩ := finish?_sound read
  rw [parts] at spelled ⊢
  exact ⟨rfl, [], spaces, zone, split, .none, spelled⟩

theorem fraction?_sound {complete : Prop} (whole : complete) (read : fraction? negative year cs = some w) :
    w = ⟨negative, year, [], w.fraction, w.zone⟩ ∧ EndSpelled complete w.fraction w.zone cs := by
  unfold fraction? at read
  split at read
  · rename_i mark rest
    extract_lets digits at read
    split at read
    · rename_i marked
      obtain ⟨parts, spaces, zone, behind, spelled⟩ := finish?_sound read
      have front : digits ++ rest.drop digits.length = rest :=
        List.prefix_iff_eq_append.mp ((List.take_prefix 9 _).trans (List.takeWhile_prefix _))
      have digital : ∀ d ∈ digits, isScriptDigit d = true := fun d mem =>
        List.all_eq_true.mp List.all_takeWhile d (List.mem_of_mem_take mem)
      rw [parts] at spelled ⊢
      refine ⟨rfl, mark :: digits, spaces, zone, ?_, ?_, spelled⟩
      · rw [List.cons_append, ← behind, front]
      · exact .digits whole marked.1 marked.2 (List.length_take_le 9 _) digital
    · exact endSpelled_of_finish? complete read
  · exact endSpelled_of_finish? complete read

theorem fields?_sound {allowed : List (List Char)} (read : fields? negative year allowed cs = some w) :
    w.negative = negative ∧ w.year = year ∧ ∃ fields rest, cs = fields ++ rest ∧
      FieldsSpelled allowed w.fields fields ∧ EndSpelled (w.fields.length = allowed.length) w.fraction w.zone rest := by
  induction allowed generalizing cs w with
  | nil =>
    have whole : ([] : List (List Char)).length = ([] : List (List Char)).length := rfl
    obtain ⟨parts, ends⟩ := fraction?_sound whole read
    rw [parts] at ends ⊢
    exact ⟨rfl, rfl, [], cs, rfl, .none, ends⟩
  | cons marks more ih =>
    rcases (Option.orElse_eq_some _ _ _).mp read with longer | ⟨_, shorter⟩
    · obtain ⟨⟨field, behind⟩, found, longer⟩ := Option.bind_eq_some_iff.mp longer
      obtain ⟨written, later, same⟩ := Option.bind_eq_some_iff.mp longer
      cases same
      obtain ⟨pair, split⟩ := twoDigits?_sound found
      obtain ⟨mark, separator, whole⟩ := dropSeparator_sound marks cs
      obtain ⟨sign, digits, fields, rest, rfl, spelled, ends⟩ := ih later
      refine ⟨sign, digits, mark ++ (field ++ fields), rest, ?_, .field separator pair spelled, ?_⟩
      · rw [whole, split, List.append_assoc, List.append_assoc]
      · simpa using ends
    · obtain ⟨parts, ends⟩ := endSpelled_of_finish? _ shorter
      rw [parts] at ends ⊢
      exact ⟨rfl, rfl, [], cs, rfl, .none, ends⟩

theorem year?_sound (read : year? negative cs = some w) :
    w.negative = negative ∧ w.year.length = 4 ∧ (∀ c ∈ w.year, isScriptDigit c = true) ∧
      ∃ fields rest, cs = w.year ++ (fields ++ rest) ∧ FieldsSpelled separators w.fields fields ∧
        EndSpelled (w.fields.length = separators.length) w.fraction w.zone rest := by
  unfold year? at read
  dsimp only at read
  split at read
  · rename_i year
    obtain ⟨length, digits⟩ := year
    obtain ⟨sign, same, fields, rest, split, spelled, ends⟩ := fields?_sound read
    rw [same]
    refine ⟨sign, length, List.all_eq_true.mp digits, fields, rest, ?_, spelled, ends⟩
    rw [← split, List.take_append_drop]
  · cases read

theorem exists_spelling (read : written? cs = some w) : ∃ s : Spelling w, s.chars = cs := by
  have behind {negative : Bool} {sign rest : List Char} (signed : SignSpelled negative sign)
      (read : year? negative rest = some w) : ∃ s : Spelling w, s.chars = sign ++ rest := by
    obtain ⟨same, length, digits, fields, ending, split, spelled, fraction, spaces, zone, ends, point, far⟩ :=
      year?_sound read
    refine ⟨⟨sign, fields, fraction, spaces, zone, same ▸ signed, length, digits, spelled, point, far⟩, ?_⟩
    simp only [Spelling.chars, Spelling.body, Spelling.ending, List.append_assoc, split, ends]
  unfold written? at read
  split at read
  · exact behind .minus read
  · exact behind .plus read
  · exact behind .none read

end Sound

/-! ### White space around a spelling -/

section Trimming

def EndsSolid (cs : List Char) : Prop := ∃ front c, cs = front ++ [c] ∧ isBlank c = false

theorem EndsSolid.prepend {cs : List Char} (solid : EndsSolid cs) (front : List Char) : EndsSolid (front ++ cs) := by
  obtain ⟨more, c, rfl, sound⟩ := solid
  exact ⟨front ++ more, c, (List.append_assoc front more [c]).symm, sound⟩

theorem EndsSolid.append {cs behind : List Char} (solid : EndsSolid cs) (next : behind = [] ∨ EndsSolid behind) :
    EndsSolid (cs ++ behind) := by
  rcases next with rfl | solid'
  · rwa [List.append_nil]
  · exact solid'.prepend cs

theorem endsSolid_digits {cs : List Char} (present : cs ≠ []) (digits : ∀ c ∈ cs, isScriptDigit c = true) :
    EndsSolid cs := by
  refine ⟨cs.dropLast, cs.getLast present, (List.dropLast_concat_getLast present).symm, ?_⟩
  exact isBlank_of_isScriptDigit (digits _ (List.getLast_mem present))

theorem endsSolid_pair {pair : List Char} (isPair : IsPair pair) : EndsSolid pair := by
  obtain ⟨a, b, rfl, _, digit⟩ := isPair
  exact ⟨[a], b, rfl, isBlank_of_isScriptDigit digit⟩

theorem endsSolid_fields {allowed fields : List (List Char)} {cs : List Char}
    (spelled : FieldsSpelled allowed fields cs) : cs = [] ∨ EndsSolid cs := by
  induction spelled with
  | none => exact .inl rfl
  | field _ pair _ ih => exact .inr (((endsSolid_pair pair).append ih).prepend _)

theorem endsSolid_fraction {complete : Prop} {digits cs : List Char} (spelled : FractionSpelled complete digits cs) :
    cs = [] ∨ EndsSolid cs := by
  cases spelled with
  | none => exact .inl rfl
  | digits _ _ present _ digital => exact .inr ((endsSolid_digits present digital).prepend [_])

theorem endsSolid_zone {zone : Option WrittenZone} {cs : List Char} (spelled : ZoneSpelled zone cs) :
    cs = [] ∨ EndsSolid cs := by
  cases spelled with
  | none => exact .inl rfl
  | utc letter => exact .inr ⟨[], _, rfl, by rcases letter with rfl | rfl <;> decide⟩
  | hours _ pair => exact .inr ((endsSolid_pair pair).prepend [_])
  | @minutes sign hours colon minutes _ _ _ pair' =>
    exact .inr ((((endsSolid_pair pair').prepend colon).prepend hours).prepend [sign])

variable {w : Written}

def Spelling.trimmed (s : Spelling w) : Spelling w := if s.zone = [] then { s with spaces := 0 } else s

theorem Spelling.not_ambiguous_trimmed {s : Spelling w} (apart : ¬ s.Ambiguous) : ¬ s.trimmed.Ambiguous := by
  unfold trimmed
  split
  · rename_i absent
    rintro ⟨_, _, minus⟩
    rw [absent] at minus
    cases minus
  · exact apart

theorem Spelling.endsSolid_body (s : Spelling w) : EndsSolid s.body := by
  obtain ⟨c, more, year, _⟩ := s.exists_year
  have behind : s.fields ++ s.fraction = [] ∨ EndsSolid (s.fields ++ s.fraction) := by
    rcases endsSolid_fields s.fields_spelled with none | solid
    · rw [none, List.nil_append]
      exact endsSolid_fraction s.fraction_spelled
    · exact .inr (solid.append (endsSolid_fraction s.fraction_spelled))
  exact ((endsSolid_digits (year ▸ List.cons_ne_nil c more) s.year_digits).append behind).prepend s.sign

theorem head_sign {negative : Bool} {sign cs : List Char} {d : Char} (spelled : SignSpelled negative sign)
    (digit : isScriptDigit d = true) : ∀ c ∈ (sign ++ d :: cs).head?, isBlank c = false := by
  cases spelled with
  | none =>
    rintro c ⟨⟩
    exact isBlank_of_isScriptDigit digit
  | plus =>
    rintro c ⟨⟩
    decide
  | minus =>
    rintro c ⟨⟩
    decide

theorem Spelling.head_body (s : Spelling w) (rest : List Char) :
    ∀ c ∈ (s.body ++ rest).head?, isBlank c = false := by
  obtain ⟨d, more, year, digit⟩ := s.exists_year
  rw [body, year, List.append_assoc]
  exact head_sign s.sign_spelled digit

theorem Spelling.trimBlanks_chars (s : Spelling w) : trimBlanks s.chars = s.trimmed.chars := by
  unfold trimmed
  split
  · rename_i absent
    obtain ⟨front, c, same, sound⟩ := s.endsSolid_body
    have first := s.head_body []
    have kept : ({ s with spaces := 0 } : Spelling w).chars = s.body := by
      simp [chars, body, ending, absent]
    rw [kept, chars, ending, absent, List.append_nil]
    rw [List.append_nil] at first
    rw [same] at first ⊢
    refine trimBlanks_append first sound fun d mem => ?_
    rw [(List.mem_replicate.mp mem).2]
    decide
  · rename_i present
    have solid := (endsSolid_zone s.zone_spelled).resolve_left present
    obtain ⟨front, c, same, sound⟩ := (solid.prepend (List.replicate s.spaces ' ')).prepend s.body
    have first := s.head_body s.ending
    rw [chars]
    rw [← ending] at same
    rw [same] at first ⊢
    have whole := trimBlanks_append first sound (List.forall_mem_nil _)
    rwa [List.append_nil] at whole

end Trimming

end TemplateExpr.Timestamp
