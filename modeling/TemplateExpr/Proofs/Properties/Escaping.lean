import TemplateExpr.Properties
/-!
Escaping of keys and values. A character is written as itself or as an escape of two characters, so that what is
written has no separator and no white space that would count. The key ends at the equals sign behind it, and
decoding gives back what was written.
-/
namespace TemplateExpr.Properties

def escapeLetter? : Char → Option Char
  | '\\' => some '\\'
  | '\t' => some 't'
  | '\n' => some 'n'
  | '\r' => some 'r'
  | '\x0c' => some 'f'
  | _ => none

/-- How a character of a key or a value is written. White space and the characters that end keys or begin comments
get a backslash, if they have no letter of their own. -/
def escapeChar (c : Char) : List Char :=
  match escapeLetter? c with
  | some letter => ['\\', letter]
  | none => if isBlank c ∨ c = '=' ∨ c = ':' ∨ c = '#' ∨ c = '!' then ['\\', c] else [c]

def escape (cs : List Char) : List Char := cs.flatMap escapeChar

structure IsPlain (c : Char) : Prop where
  not_blank : isBlank c = false
  not_backslash : c ≠ '\\'
  not_equals : c ≠ '='
  not_colon : c ≠ ':'
  not_hash : c ≠ '#'
  not_exclamation : c ≠ '!'

/-- `d` behind a backslash stands for `c`. -/
structure IsEscape (c d : Char) : Prop where
  decodes : ∀ rest, unescape ('\\' :: d :: rest) = c :: unescape rest
  not_lineFeed : d ≠ '\n'
  not_carriageReturn : d ≠ '\r'

theorem unescape_sign {c : Char} (not_backslash : c ≠ '\\') (rest : List Char) :
    unescape (c :: rest) = c :: unescape rest := by
  apply unescape.eq_9 <;> (intros; contradiction)

theorem unescape_plain {c : Char} (plain : IsPlain c) (rest : List Char) :
    unescape (c :: rest) = c :: unescape rest := unescape_sign plain.not_backslash rest

theorem isEscape_backslash : IsEscape '\\' '\\' :=
  ⟨fun rest => unescape.eq_8 '\\' rest (by decide) (by decide) (by decide) (by decide) (by decide),
    by decide, by decide⟩

theorem isEscape_letter {c letter : Char} (h : escapeLetter? c = some letter) : IsEscape c letter := by
  unfold escapeLetter? at h
  split at h
  · cases h
    exact isEscape_backslash
  · cases h
    exact ⟨unescape.eq_3, by decide, by decide⟩
  · cases h
    exact ⟨unescape.eq_4, by decide, by decide⟩
  · cases h
    exact ⟨unescape.eq_5, by decide, by decide⟩
  · cases h
    exact ⟨unescape.eq_6, by decide, by decide⟩
  · cases h

theorem isEscape_self {c : Char} (none : escapeLetter? c = none)
    (marked : isBlank c ∨ c = '=' ∨ c = ':' ∨ c = '#' ∨ c = '!') : IsEscape c c := by
  have letter (d : Char) (solid : isBlank d = false) (other : d ≠ '=' ∧ d ≠ ':' ∧ d ≠ '#' ∧ d ≠ '!') : c ≠ d := by
    rintro rfl
    simp [solid, other] at marked
  refine ⟨fun rest => ?_, ?_, ?_⟩
  · exact unescape.eq_8 c rest (letter 't' (by decide) (by decide)) (letter 'n' (by decide) (by decide))
      (letter 'r' (by decide) (by decide)) (letter 'f' (by decide) (by decide)) (letter 'u' (by decide) (by decide))
  · rintro rfl
    cases none
  · rintro rfl
    cases none

theorem escapeChar_cases (c : Char) :
    escapeChar c = [c] ∧ IsPlain c ∨ ∃ d, escapeChar c = ['\\', d] ∧ IsEscape c d := by
  unfold escapeChar
  cases letter : escapeLetter? c with
  | some d => exact Or.inr ⟨d, rfl, isEscape_letter letter⟩
  | none =>
    dsimp only
    split
    · rename_i marked
      exact Or.inr ⟨c, rfl, isEscape_self letter marked⟩
    · rename_i unmarked
      simp only [not_or, Bool.not_eq_true] at unmarked
      obtain ⟨blank, equals, colon, hash, exclamation⟩ := unmarked
      have backslash : c ≠ '\\' := by
        rintro rfl
        cases letter
      exact Or.inl ⟨rfl, blank, backslash, equals, colon, hash, exclamation⟩

theorem escape_cons (c : Char) (cs : List Char) : escape (c :: cs) = escapeChar c ++ escape cs := List.flatMap_cons

theorem unescape_escape (cs : List Char) : unescape (escape cs) = cs := by
  induction cs with
  | nil => exact unescape.eq_1
  | cons c cs ih =>
    rw [escape_cons]
    rcases escapeChar_cases c with ⟨same, plain⟩ | ⟨d, pair, escapes⟩
    · rw [same, List.singleton_append, unescape_plain plain, ih]
    · rw [pair, List.cons_append, List.singleton_append, escapes.decodes, ih]

theorem dropBlanks_escape (cs : List Char) : dropBlanks (escape cs) = escape cs := by
  cases cs with
  | nil => rfl
  | cons c cs =>
    rw [escape_cons, dropBlanks]
    rcases escapeChar_cases c with ⟨same, plain⟩ | ⟨d, pair, _⟩
    · rw [same, List.singleton_append]
      exact List.dropWhile_cons_of_neg (by simp [plain.not_blank])
    · rw [pair]
      exact List.dropWhile_cons_of_neg (by decide)

theorem splitEntry_plain {c : Char} (plain : IsPlain c) (cs : List Char) :
    splitEntry (c :: cs) = (c :: (splitEntry cs).1, (splitEntry cs).2) := by
  rw [splitEntry.eq_3 c cs fun _ _ same => absurd same plain.not_backslash,
    if_neg (not_or.mpr ⟨plain.not_equals, plain.not_colon⟩), if_neg (by simp [plain.not_blank])]

theorem splitEntry_escape (key rest : List Char) :
    splitEntry (escape key ++ '=' :: rest) = (escape key, dropBlanks rest) := by
  induction key with
  | nil => rfl
  | cons c key ih =>
    rw [escape_cons, List.append_assoc]
    rcases escapeChar_cases c with ⟨same, plain⟩ | ⟨d, pair, _⟩
    · rw [same, List.singleton_append, splitEntry_plain plain, ih, List.singleton_append]
    · rw [pair, List.cons_append, List.singleton_append, splitEntry, ih, List.cons_append, List.singleton_append]

def entryChars (key value : String) : List Char := escape key.toList ++ '=' :: escape value.toList

theorem entry_entryChars (key value : String) : entry (entryChars key value) = (key, value) := by
  rw [entry, entryChars, splitEntry_escape, dropBlanks_escape]
  dsimp only
  rw [unescape_escape, unescape_escape, String.ofList_toList, String.ofList_toList]

end TemplateExpr.Properties
