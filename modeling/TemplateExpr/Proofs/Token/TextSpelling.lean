import TemplateExpr.Proofs.Token.Scanning
import TemplateExpr.Proofs.Token.Spelling
/-!
How the text of a template is written and read. A character stands for itself or is escaped, by a letter or by
its code in four hexadecimal digits; a backslash, the quote at the end and the forbidden characters have to be
escaped, and so has a dollar, unless what follows it makes no opener of it.
-/
namespace TemplateExpr.Token

open Source Scan

def IsFollow (follow : Option Char) : Prop := follow = none ∨ follow = some '"' ∨ follow = some '\''

inductive SpelledChar (follow : Option Char) : Char → List Char → Prop where
  | plain {c : Char} (allowed : isForbidden c = false) (noBackslash : c ≠ '\\') (noDollar : c ≠ '$')
      (noFollow : some c ≠ follow) : SpelledChar follow c [c]
  | short {c letter : Char} (escape : escaped? letter = some c) : SpelledChar follow c ['\\', letter]
  | code {c : Char} {digits : List Char} (four : digits.length = 4)
      (hex : ∀ d ∈ digits, (Digits.digit? d).isSome = true)
      (value : digits.foldl (Digits.push 16) 0 = c.toNat) : SpelledChar follow c ('\\' :: 'u' :: digits)

inductive SpelledText (follow : Option Char) : List Char → List Char → Prop where
  | nil : SpelledText follow [] []
  | cons {c : Char} {w cs v : List Char} (first : SpelledChar follow c w) (rest : SpelledText follow cs v) :
      SpelledText follow (c :: cs) (w ++ v)

/-- What makes an opener behind a dollar: a bracket, an underscore or a letter. -/
def IsOpener (c : Char) : Prop := c = '\x7b' ∨ c = '(' ∨ c = '[' ∨ isIdentifierStart c = true

instance (c : Char) : Decidable (IsOpener c) :=
  inferInstanceAs (Decidable (c = '\x7b' ∨ c = '(' ∨ c = '[' ∨ isIdentifierStart c = true))

/-- Text and how it is written, with lone dollars as they are. -/
inductive EscapedText (follow : Option Char) : List Char → List Char → Prop where
  | nil : EscapedText follow [] []
  | cons {c : Char} {w cs v : List Char} (first : SpelledChar follow c w) (rest : EscapedText follow cs v) :
      EscapedText follow (c :: cs) (w ++ v)
  | dollar {cs v : List Char} (lone : ∀ c ∈ v.head?, ¬ IsOpener c) (rest : EscapedText follow cs v) :
      EscapedText follow ('$' :: cs) ('$' :: v)

theorem escapedText_of_spelled {follow : Option Char} {cs w : List Char} (spelled : SpelledText follow cs w) :
    EscapedText follow cs w := by
  induction spelled with
  | nil => exact .nil
  | cons first _ ih => exact .cons first ih

theorem reads_scanHex {digits : List Char} (hex : ∀ d ∈ digits, (Digits.digit? d).isSome = true)
    (code : Nat) (rest : List Char) :
    Reads (scanHex digits.length code) digits (digits.foldl (Digits.push 16) code) rest := by
  induction digits generalizing code with
  | nil => exact reads_pure code rest
  | cons d digits ih =>
    intro limit position
    obtain ⟨n, value⟩ := Option.isSome_iff_exists.mp (hex d List.mem_cons_self)
    have step : Digits.push 16 code d = code * 16 + n := by rw [Digits.push, value, Option.getD_some]
    have more := ih (fun e mem => hex e (List.mem_cons_of_mem d mem)) (code * 16 + n) limit (position + 1)
    rw [List.length_cons, List.cons_append, scanHex, run_get_bind]
    simp only [current_before, List.head?_cons, Option.bind_some, value]
    rw [run_bind (read_before_cons limit position d _), more, List.foldl_cons, step, Nat.add_assoc,
      Nat.add_comm 1]

theorem reads_scanCode {c : Char} {digits : List Char} (four : digits.length = 4)
    (hex : ∀ d ∈ digits, (Digits.digit? d).isSome = true)
    (value : digits.foldl (Digits.push 16) 0 = c.toNat) (rest : List Char) :
    Reads scanCode digits [c] rest := by
  intro limit position
  have scanned := reads_scanHex hex 0 rest limit position
  rw [four, value] at scanned
  have start : scanCode (before limit position (digits ++ rest)) = (do
      let code ← scanHex 4 0
      if code.isValidChar then return [Char.ofNat code]
      else throw (.malformed position .malformedEscape) : Scan (List Char))
        (before limit position (digits ++ rest)) := rfl
  have valid : c.toNat.isValidChar := c.valid
  rw [start, run_bind scanned, if_pos valid, Char.ofNat_toNat, run_pure, four]

theorem reads_scanPiece_raw {c : Char} (allowed : isForbidden c = false) (noBackslash : c ≠ '\\')
    (rest : List Char) : Reads scanPiece [c] [c] rest := by
  intro limit position
  unfold scanPiece
  rw [if_neg (by simp [allowed]), List.singleton_append, run_bind (read_before_cons limit position c rest),
    if_neg (by simp [noBackslash])]
  rfl

theorem reads_scanPiece {follow : Option Char} {c : Char} {w : List Char} (spelled : SpelledChar follow c w)
    (rest : List Char) : Reads scanPiece w [c] rest := by
  intro limit position
  have backslash : ∀ cs, scanPiece (before limit position ('\\' :: cs)) =
      scanEscaped (before limit (position + 1) cs) :=
    fun cs => run_bind (read_before_cons limit position '\\' cs)
  cases spelled with
  | plain allowed noBackslash _ _ => exact reads_scanPiece_raw allowed noBackslash rest limit position
  | @short letter escape =>
    have noCode : letter ≠ 'u' := by
      rintro rfl
      cases escape
    rw [List.cons_append, backslash, List.singleton_append, scanEscaped, run_get_bind]
    simp only [current_before, List.head?_cons]
    rw [escape]
    dsimp only
    rw [run_bind (read_before_cons limit (position + 1) letter rest)]
    rfl
  | @code digits four hex value =>
    have scanned := reads_scanCode four hex value rest limit (position + 1 + 1)
    rw [List.cons_append, backslash, List.cons_append, scanEscaped, run_get_bind]
    simp only [current_before, List.head?_cons]
    rw [run_bind (read_before_cons limit (position + 1) 'u' _), scanned]
    simp only [List.length_cons]
    congr 2
    omega

theorem spelledChar_front {follow : Option Char} (ending : IsFollow follow) {c : Char} {w : List Char}
    (spelled : SpelledChar follow c w) : ∃ d v, w = d :: v ∧ some d ≠ follow ∧ d ≠ '$' := by
  have backslash : some '\\' ≠ follow := by
    rcases ending with rfl | rfl | rfl <;> decide
  cases spelled with
  | plain _ _ noDollar noFollow => exact ⟨c, [], rfl, noFollow, noDollar⟩
  | @short letter _ => exact ⟨'\\', [letter], rfl, backslash, by decide⟩
  | @code digits _ _ _ => exact ⟨'\\', 'u' :: digits, rfl, backslash, by decide⟩

theorem escapedText_ne_nil {follow : Option Char} (ending : IsFollow follow) {cs w : List Char}
    (escaped : EscapedText follow cs w) (nonempty : cs ≠ []) : w ≠ [] := by
  cases escaped with
  | nil => exact absurd rfl nonempty
  | cons first _ =>
    obtain ⟨d, v, rfl, _⟩ := spelledChar_front ending first
    exact List.cons_ne_nil d _
  | dollar _ _ => exact List.cons_ne_nil _ _

theorem noDollar_of_isFollow {follow : Option Char} (ending : IsFollow follow) : some '$' ≠ follow := by
  rcases ending with rfl | rfl | rfl <;> decide

theorem opensInterpolation_dollar {limit position : Nat} {cs : List Char} :
    opensInterpolation (before limit position ('$' :: cs)) = true ↔ ∃ c ∈ cs.head?, IsOpener c := by
  cases cs <;> simp [opensInterpolation, IsOpener, or_assoc]

def Stops (follow : Option Char) (rest : List Char) : Prop :=
  ∀ limit position, inText follow (before limit position rest) = false

theorem not_isOpener_of_stops {follow : Option Char} (ending : IsFollow follow) {rest : List Char}
    (stops : Stops follow rest) : ∀ c ∈ rest.head?, ¬ IsOpener c := by
  intro c head opener
  have current : (before 0 0 rest).current = some c := by simpa using head
  have stopped := stops 0 0
  simp only [inText, opensInterpolation, current, Option.isSome_some, Bool.true_and, Bool.and_eq_false_iff,
    bne_eq_false_iff_eq, Bool.not_eq_false', Bool.and_eq_true, decide_eq_true_eq, Option.some.injEq] at stopped
  rcases stopped with last | ⟨rfl, _⟩
  · rcases ending with rfl | rfl | rfl
    · cases last
    · cases last
      exact absurd opener (by decide)
    · cases last
      exact absurd opener (by decide)
  · exact absurd opener (by decide)

theorem inText_escaped {follow : Option Char} (ending : IsFollow follow) {cs w rest : List Char}
    (escaped : EscapedText follow cs w) (nonempty : cs ≠ []) (stops : Stops follow rest) (limit position : Nat) :
    inText follow (before limit position (w ++ rest)) = true := by
  cases escaped with
  | nil => exact absurd rfl nonempty
  | cons first _ =>
    obtain ⟨d, u, rfl, noFollow, noDollar⟩ := spelledChar_front ending first
    simp [inText, opensInterpolation, noFollow, noDollar]
  | @dollar _ v lone _ =>
    have closed : opensInterpolation (before limit position ('$' :: (v ++ rest))) = false := by
      rw [Bool.eq_false_iff]
      intro opens
      obtain ⟨c, head, opener⟩ := opensInterpolation_dollar.mp opens
      cases v with
      | nil => exact not_isOpener_of_stops ending stops c head opener
      | cons d v => exact lone c head opener
    rw [List.cons_append, inText, closed]
    simp [noDollar_of_isFollow ending]

theorem reads_scanText {follow : Option Char} (ending : IsFollow follow) {cs w rest : List Char}
    (escaped : EscapedText follow cs w) (stops : Stops follow rest) : Reads (scanText follow) w cs rest := by
  induction escaped with
  | nil => exact fun limit position => repeatWhile_stop (stops limit position)
  | @cons c w cs v first more ih =>
    intro limit position
    have going := inText_escaped ending (.cons first more) (List.cons_ne_nil c cs) stops limit position
    have piece := reads_scanPiece first (v ++ rest) limit position
    rw [← List.append_assoc] at piece
    refine (repeatWhile_step going piece (ih limit _)).trans ?_
    rw [List.length_append, Nat.add_assoc]
    rfl
  | @dollar cs v lone more ih =>
    intro limit position
    have going := inText_escaped ending (.dollar lone more) (List.cons_ne_nil '$' cs) stops limit position
    have piece := reads_scanPiece_raw (c := '$') rfl (by decide) (v ++ rest) limit position
    refine (repeatWhile_step going piece (ih limit _)).trans ?_
    rw [Nat.add_assoc, Nat.add_comm [_].length]
    rfl

variable (limit position : Nat)

theorem nextText_text {follow : Option Char} (ending : IsFollow follow) {cs w rest : List Char}
    (escaped : EscapedText follow cs w) (nonempty : cs ≠ []) (stops : Stops follow rest) :
    nextText follow (before limit position (w ++ rest)) =
      .ok ⟨.text, String.ofList cs, position⟩ (before limit (position + w.length) rest) := by
  rw [nextText_inText (inText_escaped ending escaped nonempty stops limit position)]
  exact run_bind (reads_scanText ending escaped stops limit position)

theorem nextText_follow (c : Char) (rest : List Char) :
    nextText (some c) (before limit position (c :: rest)) =
      .ok ⟨.follow, String.ofList [c], position⟩ (before limit (position + 1) rest) := by
  rw [nextText, run_get_bind]
  change (if some c = some c then _ else _ : Scan Terminal) _ = _
  rw [if_pos rfl, run_bind (read_before_cons limit position c rest)]
  rfl

theorem nextText_stop (follow : Option Char) :
    nextText follow (before limit position []) = .ok ⟨.stop, "", position⟩ (before limit position []) := rfl

theorem nextText_open {follow : Option Char} (ending : IsFollow follow) {c : Char} {token : Token}
    (opener : opener? c = some token) (rest : List Char) :
    nextText follow (before limit position ('$' :: c :: rest)) =
      .ok ⟨token, String.ofList ['$', c], position⟩ (before limit (position + 2) rest) := by
  rw [nextText_opener rfl (noDollar_of_isFollow ending) (by simpa using opener),
    run_bind (read_before_cons limit position '$' (c :: rest)),
    run_bind (read_before_cons limit (position + 1) c rest)]
  rfl

theorem nextText_function {follow : Option Char} (ending : IsFollow follow) {w rest : List Char}
    (word : IsWord w) (stop : rest.head?.any isIdentifierPart = false) :
    nextText follow (before limit position ('$' :: w ++ rest)) =
      .ok ⟨.functionOpen, String.ofList w, position⟩ (before limit (position + 1 + w.length) rest) := by
  have scanned := reads_scanIdentifier (isIdentifierPart_of_isWord word) stop limit (position + 1)
  obtain ⟨c, cs, rfl, start, _⟩ := word
  have noOpener : opener? c = none := by
    cases opener : opener? c with
    | none => rfl
    | some token =>
      unfold opener? at opener
      split at opener <;> first | cases start | cases opener
  rw [nextText_named rfl (noDollar_of_isFollow ending) (by simpa using noOpener) (by simpa using start)]
  exact (run_bind (read_before_cons limit position '$' (c :: cs ++ rest))).trans (run_bind scanned)

theorem digit?_digitChar {n : Nat} (small : n < 16) : Digits.digit? (Nat.digitChar n) = some n := by
  have all : ∀ k : Fin 16, Digits.digit? (Nat.digitChar k) = some (k : Nat) := by decide
  exact all ⟨n, small⟩

theorem spelledChar_code {follow : Option Char} {c : Char} (small : c.toNat < 65536) :
    ∃ w, SpelledChar follow c w := by
  have digits : ∀ n, Digits.digit? (Nat.digitChar (n % 16)) = some (n % 16) :=
    fun n => digit?_digitChar (Nat.mod_lt n (by decide))
  refine ⟨_, @SpelledChar.code follow c [Nat.digitChar (c.toNat / 4096 % 16),
    Nat.digitChar (c.toNat / 256 % 16), Nat.digitChar (c.toNat / 16 % 16), Nat.digitChar (c.toNat % 16)]
    rfl ?_ ?_⟩
  · simp [digits]
  · simp only [List.foldl_cons, List.foldl_nil, Digits.push, digits, Option.getD_some]
    omega

theorem spelledChar_exists {follow : Option Char} (ending : IsFollow follow) (c : Char) :
    ∃ w, SpelledChar follow c w := by
  by_cases forbidden : isForbidden c = true
  · refine spelledChar_code ?_
    simp only [isForbidden, isControl, Bool.or_eq_true, Bool.and_eq_true, decide_eq_true_eq] at forbidden
    omega
  · have escaped : ∀ d, escaped? d = some d → c = d → ∃ w, SpelledChar follow c w :=
      fun d escape same => ⟨['\\', d], .short (same ▸ escape)⟩
    by_cases backslash : c = '\\'
    · exact escaped '\\' rfl backslash
    · by_cases dollar : c = '$'
      · exact escaped '$' rfl dollar
      · by_cases last : some c = follow
        · rcases ending with rfl | rfl | rfl
          · cases last
          · exact escaped '"' rfl (Option.some.inj last)
          · exact escaped '\'' rfl (Option.some.inj last)
        · exact ⟨_, .plain (by simpa using forbidden) backslash dollar last⟩

end TemplateExpr.Token
