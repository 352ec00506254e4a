import TemplateExpr.Proofs.Numeral.Acceptance
import TemplateExpr.Proofs.Expr.ReadingSegments
/-!
What is written as a template is read as that template. Nothing that is written holds U+FFFF, so within its
limit a source can be opened on it; from there each way to write a phrase is a way to read it.
-/
namespace TemplateExpr

open Token Source Numeral

/-- Without U+FFFF. -/
def Sound (w : List Char) : Prop := ∀ c ∈ w, c.toNat ≠ 0xFFFF

@[simp] theorem sound_nil : Sound [] := fun _ mem => absurd mem List.not_mem_nil

@[simp] theorem sound_cons {c : Char} {w : List Char} : Sound (c :: w) ↔ c.toNat ≠ 0xFFFF ∧ Sound w :=
  List.forall_mem_cons

@[simp] theorem sound_append {u v : List Char} : Sound (u ++ v) ↔ Sound u ∧ Sound v :=
  List.forall_mem_append

theorem sound_of_small {w : List Char} (small : ∀ c ∈ w, c.toNat < 0xFFFF) : Sound w :=
  fun c mem => Nat.ne_of_lt (small c mem)

theorem sound_trivia {g : List Char} (trivia : Trivia g) : Sound g := by
  induction trivia with
  | nil => exact sound_nil
  | @blank c cs blank _ ih =>
    refine sound_cons.mpr ⟨?_, ih⟩
    intro bad
    simp only [isBlank, Bool.or_eq_true, Bool.and_eq_true, decide_eq_true_eq, beq_iff_eq, bad] at blank
    omega
  | comment closed _ ih =>
    have remark : Sound _ := fun c mem => (closed c mem).2.2
    simp [ih, remark]

theorem sound_gap {g : List Char} (gap : Gap g) : Sound g := sound_trivia gap.trivia

theorem isIdentifierPart_small {c : Char} (h : isIdentifierPart c = true) : c.toNat < 0xFFFF := by
  simp only [isIdentifierPart, Bool.or_eq_true, beq_iff_eq, isAlphanum_iff] at h
  rcases h with (((alnum | rfl) | rfl) | rfl) | rfl
  · omega
  all_goals decide

theorem sound_word {w : List Char} (word : IsWord w) : Sound w :=
  sound_of_small fun c mem => isIdentifierPart_small (isIdentifierPart_of_isWord word c mem)

theorem sound_name {s : String} (name : IsName s) : Sound s.toList := sound_word name.word

theorem sound_keyword {k : Keyword} {s : String} (word : Keyword.ofWord? s = some k) : Sound s.toList :=
  sound_word (isWord_of_ofWord? word)

theorem sound_literal (l : Literal) : Sound l.chars :=
  sound_of_small fun c mem => Nat.lt_trans (literal_ascii l c mem) (by decide)

theorem sound_spelled {token : Token} {s : List Char} (spelled : Spelled token s) : Sound s := by
  cases spelled with
  | @number l d _ _ => exact sound_literal l
  | name word _ => exact sound_word word
  | keyword word => exact sound_keyword word
  | quote quote => rcases quote with rfl | rfl <;> simp
  | pair pair =>
    unfold ofPair? at pair
    split at pair <;> cases pair <;> simp
  | single single =>
    unfold Symbol.ofChar? at single
    split at single <;> cases single <;> simp

theorem sound_transforms {ts : List CaseTransform} {w : List Char} (written : WrittenTransforms ts w) :
    Sound w := by
  induction written with
  | nil => exact sound_nil
  | cons gap spelled _ _ ih => simp [sound_gap gap, sound_spelled spelled, ih]

theorem sound_length {length : Bool} {w : List Char} (written : WrittenLength length w) : Sound w := by
  cases written with
  | no => exact sound_nil
  | yes gap => simp [sound_gap gap]

theorem sound_spelledChar {follow : Option Char} {c : Char} {w : List Char}
    (spelled : SpelledChar follow c w) : Sound w := by
  cases spelled with
  | plain allowed _ _ _ =>
    refine sound_cons.mpr ⟨fun bad => ?_, sound_nil⟩
    simp [isForbidden, bad] at allowed
  | short escape =>
    unfold escaped? at escape
    split at escape <;> cases escape <;> simp
  | @code digits _ hex _ =>
    have small : Sound digits := by
      refine sound_of_small fun d mem => ?_
      have digit := hex d mem
      rw [Digits.digit?_eq] at digit
      split at digit
      · omega
      · split at digit
        · omega
        · split at digit
          · omega
          · cases digit
    simp [small]

theorem sound_text {follow : Option Char} {cs w : List Char} (escaped : EscapedText follow cs w) : Sound w := by
  induction escaped with
  | nil => exact sound_nil
  | cons first _ ih => simp [sound_spelledChar first, ih]
  | dollar _ _ ih => simp [ih]

theorem sound_quote {q : Char} (quote : q = '"' ∨ q = '\'') : q.toNat ≠ 0xFFFF := by
  rcases quote with rfl | rfl <;> decide

theorem sound_of_written {tight : Prop} {allow : String → Nat → Except Error Unit} {phrase : Phrase}
    {i : Nat} {w : List Char} (written : Written tight allow phrase i w) : Sound w := by
  induction written with
  | relational _ _ ih => exact ih
  | conditional _ gap₁ gap₂ _ gap₃ gap₄ _ ih₁ ih₂ ih₃ =>
    simp [ih₁, ih₂, ih₃, sound_gap gap₁, sound_gap gap₂, sound_gap gap₃, sound_gap gap₄]
  | operand _ _ ih => exact ih
  | binary _ gap₁ spelled _ gap₂ _ ih₁ ih₂ =>
    simp [ih₁, ih₂, sound_gap gap₁, sound_gap gap₂, sound_spelled spelled]
  | plain _ _ ih => exact ih
  | unary spelled _ gap _ ih => simp [ih, sound_spelled spelled, sound_gap gap]
  | @number l _ _ _ _ => exact sound_literal l
  | logic b => exact sound_spelled (spelled_logic b)
  | string quote _ ih => exact sound_cons.mpr ⟨sound_quote quote, ih⟩
  | paren _ trivia _ gap ih => simp [ih, sound_trivia trivia, sound_gap gap]
  | braces trivia _ ih => simp [ih, sound_trivia trivia]
  | name name => exact sound_name name
  | call name trivia₁ trivia₂ _ _ ih =>
    simp [ih, sound_name name, sound_trivia trivia₁, sound_trivia trivia₂]
  | convert word _ trivia₁ trivia₂ _ gap ih =>
    simp [ih, sound_keyword word, sound_trivia trivia₁, sound_trivia trivia₂, sound_gap gap]
  | noArguments => simp
  | someArguments _ ih => exact ih
  | lastArgument _ gap ih => simp [ih, sound_gap gap]
  | argument _ gap₁ gap₂ _ ih₁ ih₂ => simp [ih₁, ih₂, sound_gap gap₁, sound_gap gap₂]
  | defined name gap₁ gap₂ => simp [sound_name name, sound_gap gap₁, sound_gap gap₂]
  | reference name _ transforms length _ gap _ ih₁ ih₂ =>
    simp [ih₁, ih₂, sound_name name, sound_transforms transforms, sound_length length, sound_gap gap]
  | noSlice => exact sound_nil
  | start gap₁ gap₂ _ ih => simp [ih, sound_gap gap₁, sound_gap gap₂]
  | range gap₁ gap₂ _ gap₃ gap₄ _ ih₁ ih₂ =>
    simp [ih₁, ih₂, sound_gap gap₁, sound_gap gap₂, sound_gap gap₃, sound_gap gap₄]
  | noFallback => exact sound_nil
  | fallback gap₁ gap₂ _ ih => simp [ih, sound_gap gap₁, sound_gap gap₂]
  | text spelled _ _ _ ih => simp [ih, sound_text (escapedText_of_spelled spelled)]
  | @lookBack _ _ _ _ l _ _ _ _ _ trivia _ _ _ _ trivia' _ ih =>
    simp [ih, sound_trivia trivia, sound_literal l, sound_trivia trivia']
  | braced trivia _ _ ih₁ ih₂ => simp [ih₁, ih₂, sound_trivia trivia]
  | expression trivia _ gap _ ih₁ ih₂ => simp [ih₁, ih₂, sound_trivia trivia, sound_gap gap]
  | function name trivia₁ trivia₂ _ _ _ ih₁ ih₂ =>
    simp [ih₁, ih₂, sound_name name, sound_trivia trivia₁, sound_trivia trivia₂]
  | close quote => exact sound_cons.mpr ⟨sound_quote quote, sound_nil⟩
  | stop => exact sound_nil

namespace Parser

theorem reads_of_written (limit : Nat) {tight : Prop} {allow : String → Nat → Except Error Unit}
    {phrase : Phrase} {i : Nat} {w : List Char} (written : Written tight allow phrase i w) :
    Reads limit allow phrase i w := by
  induction written with
  | relational _ _ ih => exact reads_relational ih
  | conditional _ gap₁ gap₂ _ gap₃ gap₄ _ ih₁ ih₂ ih₃ =>
    exact reads_conditional ih₁ gap₁ gap₂ ih₂ gap₃ gap₄ ih₃
  | operand _ _ ih => exact reads_operand ih
  | binary _ gap₁ spelled operator gap₂ _ ih₁ ih₂ => exact reads_binary ih₁ gap₁ spelled operator gap₂ ih₂
  | plain _ inner ih =>
    obtain ⟨token, front, _, noOperator⟩ := front_of_written inner
    exact reads_plain ih front noOperator
  | unary spelled operator gap _ ih => exact reads_unary spelled operator gap ih
  | number unsigned value => exact reads_number unsigned value
  | logic b => exact reads_logic b
  | string quote _ ih => exact reads_string quote ih
  | paren _ trivia _ gap ih => exact reads_paren ih trivia gap
  | braces trivia _ ih => exact reads_braces ih trivia
  | name name => exact reads_name name
  | call name trivia₁ trivia₂ _ allowed ih => exact reads_call ih name trivia₁ trivia₂ allowed
  | convert word conversion trivia₁ trivia₂ _ gap ih =>
    exact reads_convert ih word conversion trivia₁ trivia₂ gap
  | noArguments => exact reads_noArguments
  | someArguments inner ih =>
    obtain ⟨token, first, noClose⟩ := front_of_written inner
    exact reads_someArguments ih first noClose
  | lastArgument _ gap ih => exact reads_lastArgument ih gap
  | argument _ gap₁ gap₂ _ ih₁ ih₂ => exact reads_argument ih₁ gap₁ gap₂ ih₂
  | defined name gap₁ gap₂ => exact reads_defined name gap₁ gap₂
  | reference name slice transforms length fallback gap noComment ih₁ ih₂ =>
    exact reads_reference name slice ih₁ transforms length fallback ih₂ gap noComment
  | noSlice => exact reads_noSlice
  | start gap₁ gap₂ bound ih =>
    obtain ⟨token, front, _⟩ := front_of_written bound
    exact reads_start gap₁ gap₂ ih front
  | range gap₁ gap₂ first gap₃ gap₄ second ih₁ ih₂ =>
    obtain ⟨token, front, _⟩ := front_of_written first
    obtain ⟨token', front', _⟩ := front_of_written second
    exact reads_range gap₁ gap₂ ih₁ front gap₃ gap₄ ih₂ front'
  | noFallback => exact reads_noFallback
  | fallback gap₁ gap₂ _ ih => exact reads_fallback gap₁ gap₂ ih
  | text spelled nonempty alone rest ih =>
    exact segments_text (escapedText_of_spelled spelled) nonempty (fun _ last => stops_of_written rest alone last) ih
  | lookBack trivia plain value distance there trivia' _ ih =>
    exact segments_lookBack trivia plain value distance there trivia' ih
  | braced trivia _ _ ih₁ ih₂ => exact segments_braced trivia ih₁ ih₂
  | expression trivia _ gap _ ih₁ ih₂ => exact segments_expression trivia ih₁ gap ih₂
  | function name trivia₁ trivia₂ _ allowed _ ih₁ ih₂ =>
    exact segments_function name trivia₁ trivia₂ ih₁ allowed ih₂
  | close _ => exact segments_close
  | stop => exact segments_stop

theorem template_of_reads {allow : String → Nat → Except Error Unit} {ss : List (Segment Expr)} {text : String}
    {limit : Nat} (read : Reads (max limit minLimit) allow (.segments none 0 ss) 1 text.toList)
    (sound : Sound text.toList) (fits : text.utf8ByteSize ≤ max limit minLimit) (pool : Pool) :
    ∃ source, Source.ofText limit text = .ok source ∧
      (template allow source pool).1 = .ok (.template ss true) := by
  refine ⟨_, ofText_before fits sound, ?_⟩
  let source := before (max limit minLimit) 1 text.toList
  have enough : 16 * text.toList.length + 1 ≤ depthFor source := by
    rw [depthFor, remaining_before]
    omega
  have start : Fresh (max limit minLimit) ⟨source, none, pool⟩ 1 (text.toList ++ []) := by
    rw [List.append_nil]
    exact ⟨rfl, rfl⟩
  obtain ⟨p, done, fresh⟩ :=
    read (depthFor source) ⟨source, none, pool⟩ [] enough (Or.inl rfl) (fun _ => rfl) start
  obtain ⟨q, made, _⟩ := ofSegments_fresh ss true fresh
  unfold template
  rw [run_bind done, made]

theorem template_of_written {tight : Prop} {allow : String → Nat → Except Error Unit}
    {ss : List (Segment Expr)} {text : String} {limit : Nat}
    (written : Written tight allow (.segments none 0 ss) 1 text.toList) (fits : text.utf8ByteSize ≤ limit)
    (pool : Pool) :
    ∃ source, Source.ofText limit text = .ok source ∧
      (template allow source pool).1 = .ok (.template ss true) :=
  template_of_reads (reads_of_written _ written) (sound_of_written written)
    (Nat.le_trans fits (Nat.le_max_left ..)) pool

end Parser

end TemplateExpr
