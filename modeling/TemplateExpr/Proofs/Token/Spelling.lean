import TemplateExpr.Token.Expression
import TemplateExpr.Proofs.Numeral.Reading
/-!
The spelling of the tokens of expressions, and how they are read: white space and closed comments before a
token do not count, and a token is read as it is spelled if what follows cannot continue it.
-/
namespace TemplateExpr

theorem isBlank_ascii {c : Char} (printable : 0x20 < c.toNat ∧ c.toNat < 0x80) : isBlank c = false := by
  simp only [isBlank, Bool.or_eq_false_iff, Bool.and_eq_false_iff, decide_eq_false_iff_not,
    beq_eq_false_iff_ne]
  omega

namespace Token

open Source Scan Numeral

def IsRemark (body : List Char) : Prop := ∀ c ∈ body, c ≠ '#' ∧ c ≠ '\n' ∧ c.toNat ≠ 0xFFFF

/-- White space and comments that are closed by two hashes. -/
inductive Trivia : List Char → Prop where
  | nil : Trivia []
  | blank {c : Char} {cs : List Char} (blank : isBlank c = true) (rest : Trivia cs) : Trivia (c :: cs)
  | comment {body cs : List Char} (closed : IsRemark body) (rest : Trivia cs) :
      Trivia (['#', '#'] ++ body ++ ['#', '#'] ++ cs)

theorem reads_scanCommentBody {body : List Char} (closed : IsRemark body)
    (rest : List Char) : Reads scanCommentBody body body ('#' :: '#' :: rest) := by
  intro limit position
  induction body generalizing position with
  | nil => exact repeatWhile_stop rfl
  | cons c body ih =>
    obtain ⟨noHash, noLine, _⟩ := closed c List.mem_cons_self
    have going : inComment (before limit position (c :: body ++ '#' :: '#' :: rest)) = true := by
      simp [inComment, atComment, noHash, noLine]
    have first : (return (← Source.read).toList : Scan (List Char))
        (before limit position (c :: body ++ '#' :: '#' :: rest)) =
          .ok [c] (before limit (position + 1) (body ++ '#' :: '#' :: rest)) :=
      run_bind (read_before_cons limit position c _)
    have more := ih (fun d mem => closed d (List.mem_cons_of_mem c mem)) (position + 1)
    refine (repeatWhile_step going first more).trans ?_
    rw [List.length_cons, Nat.add_assoc, Nat.add_comm 1]
    rfl

theorem reads_scanComment {body : List Char} (closed : IsRemark body)
    (rest : List Char) :
    Reads scanComment (['#', '#'] ++ body ++ ['#', '#']) (['#', '#'] ++ body ++ ['#', '#']) rest := by
  have ending : Reads scanCommentEnd ['#', '#'] ['#', '#'] rest :=
    reads_get fun limit position =>
      reads_bind (u := ['#']) (reads_read '#' ('#' :: rest)) (reads_map (reads_read '#' rest) _)
  intro limit position
  have start : ['#', '#'] ++ body ++ ['#', '#'] ++ rest = '#' :: '#' :: (body ++ '#' :: '#' :: rest) := by
    simp
  have inner := reads_scanCommentBody closed rest limit (position + 1 + 1)
  have last := ending limit (position + 1 + 1 + body.length)
  rw [start, scanComment, run_bind (read_before_cons limit position '#' _),
    run_bind (read_before_cons limit (position + 1) '#' _), run_bind inner]
  refine (run_bind last).trans ?_
  simp only [run_pure, Option.toList_some, List.length_append, List.length_cons, List.length_nil]
  congr 2
  omega

theorem nextExpression_trifle {s t : Source} {piece : List Char} (here : atTrivia s = true)
    (step : scanTrifle s = .ok piece t) : nextExpression s = nextExpression t := by
  have skip : scanTrivia s = match scanTrivia t with
      | .ok pieces u => .ok (piece ++ pieces) u
      | .error e u => .error e u := by
    cases rest : scanTrivia t with
    | ok pieces u => exact repeatWhile_step here step rest
    | error e u => exact repeatWhile_later_error here step rest
  cases rest : scanTrivia t with
  | ok pieces u =>
    rw [rest] at skip
    rw [nextExpression, run_bind skip, run_bind rest]
  | error e u =>
    rw [rest] at skip
    rw [nextExpression, run_bind_error skip, run_bind_error rest]

theorem nextExpression_trivia {gap : List Char} (trivia : Trivia gap) (limit position : Nat)
    (rest : List Char) :
    nextExpression (before limit position (gap ++ rest)) =
      nextExpression (before limit (position + gap.length) rest) := by
  induction trivia generalizing position with
  | nil => rfl
  | @blank c cs blank _ ih =>
    have step : scanTrifle (before limit position (c :: cs ++ rest)) =
        .ok [c] (before limit (position + 1) (cs ++ rest)) := by
      unfold scanTrifle
      rw [if_pos (by simpa using blank)]
      exact run_bind (read_before_cons limit position c _)
    rw [nextExpression_trifle (by simp [atTrivia, blank]) step, ih, List.length_cons,
      Nat.add_assoc, Nat.add_comm 1]
  | @comment body cs closed _ ih =>
    have step : scanTrifle (before limit position (['#', '#'] ++ body ++ ['#', '#'] ++ cs ++ rest)) =
        .ok (['#', '#'] ++ body ++ ['#', '#'])
          (before limit (position + (['#', '#'] ++ body ++ ['#', '#']).length) (cs ++ rest)) := by
      unfold scanTrifle
      rw [if_neg (by simp; decide), List.append_assoc _ cs]
      exact reads_scanComment closed (cs ++ rest) limit position
    rw [nextExpression_trifle (by simp [atTrivia, atComment]) step, ih, Nat.add_assoc,
      ← List.length_append]

/-- What may stand behind a token that a longer one could begin with: nothing, white space or a comment. -/
def Parted (rest : List Char) : Prop := ∀ c, rest.head? = some c → isBlank c = true ∨ c = '#'

theorem not_blank_of_isAlphanum {c : Char} (h : c.isAlphanum = true) : isBlank c = false := by
  rw [isAlphanum_iff] at h
  exact isBlank_ascii (by omega)

structure Leads (c : Char) : Prop where
  sound : isBlank c = false
  noHash : c ≠ '#'

theorem atTrivia_of_leads {c : Char} (leads : Leads c) (limit position : Nat) (cs : List Char) :
    atTrivia (before limit position (c :: cs)) = false := by
  simp [atTrivia, atComment, leads.sound, leads.noHash]

theorem nextExpression_here {s : Source} (token : atTrivia s = false) :
    nextExpression s = scanTerminal s :=
  run_bind (repeatWhile_stop token)

theorem isIdentifierPart_not_blank {c : Char} (h : isIdentifierPart c = true) : isBlank c = false := by
  simp only [isIdentifierPart, Bool.or_eq_true, beq_iff_eq] at h
  rcases h with (((alnum | rfl) | rfl) | rfl) | rfl
  · exact not_blank_of_isAlphanum alnum
  all_goals rfl

theorem ends_of_parted {rest : List Char} (parted : Parted rest) : Ends rest := by
  intro c head
  rcases parted c head with blank | rfl
  · refine ⟨?_, ?_, ?_⟩
    · cases alnum : c.isAlphanum with
      | false => rfl
      | true => rw [not_blank_of_isAlphanum alnum] at blank; cases blank
    · rintro rfl; cases blank
    · rintro rfl; cases blank
  · decide

def IsWord (w : List Char) : Prop :=
  ∃ c cs, w = c :: cs ∧ isIdentifierStart c = true ∧ ∀ d ∈ cs, isIdentifierPart d = true

theorem isIdentifierPart_of_start {c : Char} (h : isIdentifierStart c = true) :
    isIdentifierPart c = true := by
  simp only [isIdentifierStart, Bool.or_eq_true, beq_iff_eq] at h
  simp only [isIdentifierPart, Char.isAlphanum, Bool.or_eq_true, beq_iff_eq]
  rcases h with alpha | line
  · exact Or.inl (Or.inl (Or.inl (Or.inl (Or.inl alpha))))
  · exact Or.inl (Or.inl (Or.inl (Or.inr line)))

theorem isIdentifierPart_of_isWord {w : List Char} (word : IsWord w) :
    ∀ c ∈ w, isIdentifierPart c = true := by
  obtain ⟨c, cs, rfl, start, parts⟩ := word
  intro d mem
  rcases List.mem_cons.mp mem with rfl | mem
  · exact isIdentifierPart_of_start start
  · exact parts d mem

theorem reads_scanIdentifier {w rest : List Char} (parts : ∀ c ∈ w, isIdentifierPart c = true)
    (stop : rest.head?.any isIdentifierPart = false) :
    Reads scanIdentifier w (String.ofList w) rest := by
  intro limit position
  obtain ⟨front, back⟩ := span_append parts stop
  have taken := takeWhile_before limit position isIdentifierPart (w ++ rest)
  rw [front, back] at taken
  exact run_bind taken

theorem parted_word {rest : List Char} (parted : Parted rest) :
    rest.head?.any isIdentifierPart = false := by
  cases rest with
  | nil => rfl
  | cons c rest =>
    cases part : isIdentifierPart c with
    | false => simpa using part
    | true =>
      rcases parted c rfl with blank | rfl
      · rw [isIdentifierPart_not_blank part] at blank
        cases blank
      · cases part

inductive Spelled : Token → List Char → Prop where
  | number {l : Literal} {d : Decimal} (unsigned : l.sign = .none) (value : Yields l d) :
      Spelled (.number (l.numeral d)) l.chars
  | name {w : List Char} (word : IsWord w) (free : Keyword.ofWord? (String.ofList w) = none) :
      Spelled .identifier w
  | keyword {k : Keyword} {w : String} (word : Keyword.ofWord? w = some k) : Spelled (.keyword k) w.toList
  | quote {c : Char} (quote : c = '"' ∨ c = '\'') : Spelled .quote [c]
  | pair {a b : Char} {token : Token} (pair : ofPair? a b = some token) : Spelled token [a, b]
  | single {c : Char} {s : Symbol} (single : Symbol.ofChar? c = some s) : Spelled (.symbol s) [c]

theorem isWord_of_ofWord? {k : Keyword} {w : String} (h : Keyword.ofWord? w = some k) :
    IsWord w.toList := by
  unfold Keyword.ofWord? at h
  split at h
  all_goals (cases h <;> exact ⟨_, _, rfl, by decide, List.all_eq_true.mp (by decide)⟩)

/-- The front of a symbol is neither that of a numeral nor that of a word. -/
structure Bare (c : Char) : Prop where
  noDigit : c.isDigit = false
  noPoint : c ≠ '.'
  noWord : isIdentifierStart c = false
  noQuote : c ≠ '"' ∧ c ≠ '\''
  sound : isBlank c = false

theorem bare_of_ofPair? {a b : Char} {token : Token} (h : ofPair? a b = some token) : Bare a := by
  unfold ofPair? at h
  split at h
  all_goals (cases h <;> exact ⟨by decide, by decide, by decide, by decide, by decide⟩)

theorem bare_of_ofChar? {c : Char} {s : Symbol} (h : Symbol.ofChar? c = some s) : Bare c := by
  unfold Symbol.ofChar? at h
  split at h
  all_goals (cases h <;> exact ⟨by decide, by decide, by decide, by decide, by decide⟩)

theorem second_of_ofPair? {a b : Char} {token : Token} (h : ofPair? a b = some token) :
    isBlank b = false ∧ b ≠ '#' := by
  unfold ofPair? at h
  split at h
  all_goals (cases h <;> exact ⟨by decide, by decide⟩)

theorem parted_pair {rest : List Char} (parted : Parted rest) (c : Char) :
    rest.head?.bind (ofPair? c) = none := by
  cases rest with
  | nil => rfl
  | cons d rest =>
    cases pair : ofPair? c d with
    | none => exact pair
    | some token =>
      obtain ⟨sound, noHash⟩ := second_of_ofPair? pair
      rcases parted d rfl with blank | hash
      · rw [sound] at blank
        cases blank
      · exact absurd hash noHash

variable (limit position : Nat)

theorem digit_leads {c : Char} (digit : c.isDigit = true) : Leads c := by
  constructor
  · rw [isDigit_iff] at digit
    exact isBlank_ascii (by omega)
  · rintro rfl
    cases digit

theorem digit_of_isDigitOf {c : Char} (digit : Digits.isDigitOf 10 c = true) : c.isDigit = true := by
  rw [← Digits.isDigitOf_ten]
  exact digit

theorem numeral_front (b : Body) (rest : List Char) :
    ∃ c cs, b.chars ++ rest = c :: cs ∧ Leads c ∧
      (c.isDigit || c == '.' && cs.head?.any Char.isDigit) = true := by
  cases b with
  | marked mark base digits marks run => exact ⟨'0', _, rfl, ⟨by decide, by decide⟩, rfl⟩
  | decimal m e =>
    cases m with
    | whole digits run =>
      obtain ⟨d, more, rfl, digit⟩ := run_head run
      have digit := digit_of_isDigitOf digit
      exact ⟨d, _, rfl, digit_leads digit, by simp [digit]⟩
    | point digits places run tail =>
      obtain ⟨d, more, rfl, digit⟩ := run_head run
      have digit := digit_of_isDigitOf digit
      exact ⟨d, _, rfl, digit_leads digit, by simp [digit]⟩
    | bare places run =>
      obtain ⟨d, more, rfl, digit⟩ := run_head run
      have digit := digit_of_isDigitOf digit
      refine ⟨'.', d :: (more ++ exponentChars e ++ rest), ?_, ⟨by decide, by decide⟩, by simp [digit]⟩
      simp [Body.chars, Mantissa.chars, Mantissa.digits, Mantissa.fraction]

theorem nextExpression_number {l : Literal} {d : Decimal} {rest : List Char} (unsigned : l.sign = .none)
    (value : Yields l d) (ends : Ends rest) :
    nextExpression (before limit position (l.chars ++ rest)) =
      .ok ⟨.number (l.numeral d), String.ofList l.chars, position⟩
        (before limit (position + l.chars.length) rest) := by
  have scanned := reads_scan value ends limit position
  have chars : l.chars = l.body.chars := by
    rw [Literal.chars, unsigned]
    rfl
  obtain ⟨c, cs, front, leads, starts⟩ := numeral_front l.body rest
  rw [← chars] at front
  rw [front] at scanned ⊢
  rw [nextExpression_here (atTrivia_of_leads leads limit position cs), scanTerminal, run_get_bind]
  change (if (c.isDigit || c == '.' && cs.head?.any Char.isDigit) = true then _ else _ : Scan Terminal) _ = _
  rw [if_pos starts, run_bind scanned]
  rfl

theorem nextExpression_word {w rest : List Char} (word : IsWord w)
    (stop : rest.head?.any isIdentifierPart = false) :
    nextExpression (before limit position (w ++ rest)) =
      .ok ⟨((Keyword.ofWord? (String.ofList w)).map keyword).getD identifier, String.ofList w, position⟩
        (before limit (position + w.length) rest) := by
  have scanned := reads_scanIdentifier (isIdentifierPart_of_isWord word) stop limit position
  obtain ⟨c, cs, rfl, start, _⟩ := word
  have leads : Leads c := by
    refine ⟨isIdentifierPart_not_blank (isIdentifierPart_of_start start), ?_⟩
    rintro rfl
    cases start
  have noNumeral : ¬ (c.isDigit || c == '.' && (cs ++ rest).head?.any Char.isDigit) = true := by
    have noPoint : c ≠ '.' := by
      rintro rfl
      cases start
    have noDigit : c.isDigit = false := by
      cases digit : c.isDigit with
      | false => rfl
      | true =>
        rw [isDigit_iff] at digit
        simp only [isIdentifierStart, Bool.or_eq_true, beq_iff_eq, isAlpha_iff] at start
        rcases start with letter | rfl
        · omega
        · revert digit
          decide
    simp [noPoint, noDigit]
  have here : atTrivia (before limit position (c :: cs ++ rest)) = false :=
    atTrivia_of_leads leads limit position (cs ++ rest)
  rw [nextExpression_here here, scanTerminal, run_get_bind]
  change (if (c.isDigit || c == '.' && (cs ++ rest).head?.any Char.isDigit) = true then _
    else if isIdentifierStart c = true then _ else _ : Scan Terminal) _ = _
  rw [if_neg noNumeral, if_pos start, run_bind scanned]
  rfl

theorem nextExpression_quote {c : Char} (quote : c = '"' ∨ c = '\'') (rest : List Char) :
    nextExpression (before limit position (c :: rest)) =
      .ok ⟨.quote, String.ofList [c], position⟩ (before limit (position + 1) rest) := by
  rcases quote with rfl | rfl
  · rw [nextExpression_here (atTrivia_of_leads ⟨by decide, by decide⟩ limit position rest),
      scanTerminal, run_get_bind]
    exact run_bind (read_before_cons limit position '"' rest)
  · rw [nextExpression_here (atTrivia_of_leads ⟨by decide, by decide⟩ limit position rest),
      scanTerminal, run_get_bind]
    exact run_bind (read_before_cons limit position '\'' rest)

theorem scanTerminal_bare {c : Char} (bare : Bare c) (rest : List Char) :
    scanTerminal (before limit position (c :: rest)) =
      (match rest.head?.bind (ofPair? c) with
        | some token => do
          let _ ← Source.read
          let second ← Source.read
          return ⟨token, String.ofList (c :: second.toList), position⟩
        | none =>
          match Symbol.ofChar? c with
          | some single => do
            let _ ← Source.read
            return ⟨symbol single, c.toString, position⟩
          | none => throw (.malformed position (.unexpectedChar c)) : Scan Terminal)
        (before limit position (c :: rest)) := by
  rw [scanTerminal, run_get_bind]
  change (if (c.isDigit || c == '.' && rest.head?.any Char.isDigit) = true then _
    else if isIdentifierStart c = true then _ else if c = '"' ∨ c = '\'' then _ else _ : Scan Terminal) _ = _
  rw [if_neg (by simp [bare.noDigit, bare.noPoint]), if_neg (by simp [bare.noWord]),
    if_neg (by simp [bare.noQuote.1, bare.noQuote.2])]
  rfl

theorem nextExpression_pair {a b : Char} {token : Token} (pair : ofPair? a b = some token)
    (rest : List Char) :
    nextExpression (before limit position (a :: b :: rest)) =
      .ok ⟨token, String.ofList [a, b], position⟩ (before limit (position + 2) rest) := by
  have bare := bare_of_ofPair? pair
  have noHash : a ≠ '#' := by
    rintro rfl
    cases pair
  rw [nextExpression_here (atTrivia_of_leads ⟨bare.sound, noHash⟩ limit position _),
    scanTerminal_bare limit position bare, List.head?_cons, Option.bind_some, pair]
  dsimp only
  rw [run_bind (read_before_cons limit position a _), run_bind (read_before_cons limit _ b rest)]
  rfl

theorem nextExpression_single {c : Char} {s : Symbol} {rest : List Char}
    (single : Symbol.ofChar? c = some s) (apart : rest.head?.bind (ofPair? c) = none)
    (noComment : c = '#' → rest.head? ≠ some '#') :
    nextExpression (before limit position (c :: rest)) =
      .ok ⟨.symbol s, String.ofList [c], position⟩ (before limit (position + 1) rest) := by
  have bare := bare_of_ofChar? single
  have here : atTrivia (before limit position (c :: rest)) = false := by
    by_cases hash : c = '#'
    · simp [atTrivia, atComment, bare.sound, noComment hash]
    · exact atTrivia_of_leads ⟨bare.sound, hash⟩ limit position rest
  rw [nextExpression_here here, scanTerminal_bare limit position bare, apart, single]
  dsimp only
  rw [run_bind (read_before_cons limit position c rest)]
  rfl

theorem nextExpression_spelled {token : Token} {w rest : List Char} (spelled : Spelled token w)
    (parted : Parted rest) (noComment : token = .symbol .hash → rest.head? ≠ some '#') :
    nextExpression (before limit position (w ++ rest)) =
      .ok ⟨token, String.ofList w, position⟩ (before limit (position + w.length) rest) := by
  cases spelled with
  | number unsigned value =>
    exact nextExpression_number limit position unsigned value (ends_of_parted parted)
  | name word free =>
    have read := nextExpression_word limit position word (parted_word parted)
    rw [free] at read
    exact read
  | @keyword k w found =>
    have read := nextExpression_word limit position (isWord_of_ofWord? found) (parted_word parted)
    rw [String.ofList_toList, found] at read
    rw [String.ofList_toList]
    exact read
  | quote quote => exact nextExpression_quote limit position quote rest
  | pair pair => exact nextExpression_pair limit position pair rest
  | @single c s single =>
    refine nextExpression_single limit position single (parted_pair parted c) fun hash => noComment ?_
    subst hash
    cases single
    rfl

end Token

end TemplateExpr
