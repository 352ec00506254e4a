import TemplateExpr.Proofs.Evaluation.Agreement
import TemplateExpr.Proofs.Expr.TemplateReading
/-!
Texts written as templates. However the characters of a text are escaped, the text is read as one token, and the
template has the text as its value. The limit has to leave room for the quote behind the text as well, since it
comes into view before the text is over.
-/
namespace TemplateExpr

open Token Source

variable {σ : Type} {follow : Option Char} {cs w : List Char}

namespace Token

theorem stops_ending (ending : IsFollow follow) {rest : List Char} (last : follow = none → rest = []) :
    Stops follow (follow.toList ++ rest) := by
  rcases ending with rfl | rfl | rfl
  · rw [last rfl]
    exact stops_end
  · exact stops_follow
  · exact stops_follow

theorem sound_ending (ending : IsFollow follow) : Sound follow.toList := by
  rcases ending with rfl | rfl | rfl <;> simp

theorem spelledChar_outside {c : Char} (spelled : SpelledChar follow c w) : SpelledChar none c w := by
  cases spelled with
  | plain allowed noBackslash noDollar _ => exact .plain allowed noBackslash noDollar (Option.some_ne_none c)
  | short escape => exact .short escape
  | code four hex value => exact .code four hex value

theorem escapedText_outside (escaped : EscapedText follow cs w) : EscapedText none cs w := by
  induction escaped with
  | nil => exact .nil
  | cons first _ ih => exact .cons (spelledChar_outside first) ih
  | dollar lone _ ih => exact .dollar lone ih

theorem escapedText_raw
    (raw : ∀ c ∈ cs, isForbidden c = false ∧ c ≠ '\\' ∧ c ≠ '$' ∧ some c ≠ follow) : EscapedText follow cs cs := by
  induction cs with
  | nil => exact .nil
  | cons c cs ih =>
    obtain ⟨allowed, noBackslash, noDollar, noFollow⟩ := raw c List.mem_cons_self
    have rest := ih fun d mem => raw d (List.mem_cons_of_mem c mem)
    exact .cons (.plain allowed noBackslash noDollar noFollow) rest

theorem nextText_ofText (ending : IsFollow follow) {t spelling rest : String} {limit : Nat}
    (escaped : EscapedText follow t.toList spelling.toList) (nonempty : t ≠ "")
    (last : follow = none → rest = "") (sound : Sound rest.toList)
    (fits : (spelling ++ String.ofList follow.toList ++ rest).utf8ByteSize ≤ max limit minLimit) :
    ∃ s, ofText limit (spelling ++ String.ofList follow.toList ++ rest) = .ok s ∧
      nextText follow s =
        .ok ⟨.text, t, 1⟩ (before (max limit minLimit) (1 + spelling.length) (follow.toList ++ rest.toList)) := by
  have chars : (spelling ++ String.ofList follow.toList ++ rest).toList =
      spelling.toList ++ (follow.toList ++ rest.toList) := by
    rw [String.toList_append, String.toList_append, String.toList_ofList, List.append_assoc]
  have whole : Sound (spelling ++ String.ofList follow.toList ++ rest).toList := by
    rw [chars]
    exact sound_append.mpr ⟨sound_text escaped, sound_append.mpr ⟨sound_ending ending, sound⟩⟩
  have filled : t.toList ≠ [] := by
    intro none
    exact nonempty (String.toList_inj.mp none)
  have stops : Stops follow (follow.toList ++ rest.toList) := by
    apply stops_ending ending
    intro unquoted
    rw [last unquoted]
    rfl
  have read := nextText_text (max limit minLimit) 1 ending escaped filled stops
  rw [String.ofList_toList, String.length_toList] at read
  refine ⟨_, ofText_before fits whole, ?_⟩
  rw [chars, read]

end Token

def textSegments (t : String) : List (Segment Expr) := if t = "" then [] else [.text t]

theorem plainText?_textSegments (t : String) : Parser.plainText? (textSegments t) = some t := by
  unfold textSegments
  split
  · rename_i empty
    rw [empty]
    rfl
  · simp [Parser.plainText?]

theorem eval_textSegments (on : Surroundings σ) (t : String) (run : Run σ) :
    Expr.eval on (.template (textSegments t) true) run = .ok (.text t) run := by
  have several : ∀ e, textSegments t = [.value e] → true = true → False := by
    intro e single
    have plain := plainText?_textSegments t
    rw [single] at plain
    cases plain
  rw [Expr.eval_several several, Expr.general_plain (plainText?_textSegments t), Expr.eval]
  rfl

namespace Parser

theorem reads_textSegments {limit : Nat} {allow : String → Nat → Except Error Unit} {t : String}
    (escaped : EscapedText none t.toList w) : Reads limit allow (.segments none 0 (textSegments t)) 1 w := by
  unfold textSegments
  split
  · rename_i empty
    rw [empty] at escaped
    cases escaped
    exact segments_stop
  · rename_i nonempty
    rw [← List.append_nil w]
    apply segments_text escaped nonempty _ segments_stop
    intro rest last
    rw [last rfl]
    exact stops_end

end Parser

namespace Session

theorem compile_escaped (session : Session σ) {t spelling : String}
    (escaped : EscapedText none t.toList spelling.toList)
    (fits : spelling.utf8ByteSize ≤ session.context.lengthLimit) :
    (session.compile spelling).1 = .ok ⟨.template (textSegments t) true, some spelling⟩ := by
  obtain ⟨source, opened, parsed⟩ := Parser.template_of_reads (Parser.reads_textSegments escaped)
    (sound_text escaped) (Nat.le_trans fits (Nat.le_max_left ..)) session.pool
  rw [compile, opened, compileSource_opened, parsed]
  rfl

theorem evaluate_textSegments (session : Session σ) (t : String) (text : Option String) (symbols : Symbols) :
    session.evaluate ⟨.template (textSegments t) true, text⟩ symbols = (.ok (.text t), session) := by
  rw [evaluate, runIn, eval_textSegments]

/-- Escaping is undone by reading. Written with any mixture of escapes, a text that is not empty is read as one
token up to the quote or the end behind it, provided that what is written is within the limit, with the quote and
whatever comes behind it; as a template of its own it is compiled, and its value is the text. -/
theorem escaped_text_decodes (ending : IsFollow follow) {t spelling : String}
    (escaped : EscapedText follow t.toList spelling.toList) :
    (t ≠ "" → ∀ limit rest, (follow = none → rest = "") → Sound rest.toList →
      (spelling ++ String.ofList follow.toList ++ rest).utf8ByteSize ≤ max limit minLimit →
      ∃ s, ofText limit (spelling ++ String.ofList follow.toList ++ rest) = .ok s ∧
        nextText follow s = .ok ⟨.text, t, 1⟩
          (before (max limit minLimit) (1 + spelling.length) (follow.toList ++ rest.toList))) ∧
    ∀ session : Session σ, spelling.utf8ByteSize ≤ session.context.lengthLimit →
      ∃ expression, (session.compile spelling).1 = .ok expression ∧
        ∀ (later : Session σ) symbols, later.evaluate expression symbols = (.ok (.text t), later) := by
  constructor
  · intro nonempty limit rest last sound fits
    exact nextText_ofText ending escaped nonempty last sound fits
  · intro session fits
    refine ⟨_, compile_escaped session (escapedText_outside escaped) fits, ?_⟩
    intro later symbols
    exact evaluate_textSegments later t _ symbols

/-- The quote behind a text has to fit as well. If the limit covers no more than the text, bringing the quote into
view fails before the text is over. -/
theorem escaped_text_quote_beyond :
    EscapedText (some '"') "ab".toList "ab".toList ∧ "ab".utf8ByteSize ≤ 2 ∧
      ∃ s u, ofText 2 ("ab" ++ String.ofList ['"']) = .ok s ∧
        nextText (some '"') s = .error (.tooLong 2) u := by
  have letters : "ab".toList = ['a', 'b'] := by decide
  have fails : (match ofText 2 ("ab" ++ String.ofList ['"']) with
      | .ok s =>
        match nextText (some '"') s with
        | .error e _ => decide (e = .tooLong 2)
        | .ok _ _ => false
      | .error _ => false) = true := by decide +kernel
  refine ⟨?_, by decide, ?_⟩
  · rw [letters]
    exact escapedText_raw (by simp [isForbidden, isControl])
  · cases opened : ofText 2 ("ab" ++ String.ofList ['"']) with
    | error e =>
      rw [opened] at fails
      cases fails
    | ok s =>
      rw [opened] at fails
      dsimp only at fails
      cases read : nextText (some '"') s with
      | ok t u =>
        rw [read] at fails
        cases fails
      | error e u =>
        rw [read] at fails
        exact ⟨s, u, rfl, by rw [read, of_decide_eq_true fails]⟩

/-- A lone dollar, escapes of both kinds and the other quote, up to the closing one in front of a parenthesis. -/
theorem escaped_text_decodes_mixture :
    let session : Session Unit := { context := { maxLength := 14 }, host := () }
    let t := "5$ \"é\t'"
    let spelling := "5$ \\\"\\u00e9\\t'"
    EscapedText (some '"') t.toList spelling.toList ∧
      (∃ s, ofText 16 (spelling ++ String.ofList ['"'] ++ ")") = .ok s ∧
        nextText (some '"') s = .ok ⟨.text, t, 1⟩ (before 16 15 ['"', ')'])) ∧
      ∃ expression, (session.compile spelling).1 = .ok expression ∧
        ∀ symbols, session.evaluate expression symbols = (.ok (.text t), session) := by
  intro session t spelling
  have chars : t.toList = ['5', '$', ' ', '"', 'é', '\t', '\''] := by decide
  have written : spelling.toList =
      ['5', '$', ' ', '\\', '"', '\\', 'u', '0', '0', 'e', '9', '\\', 't', '\''] := by decide
  have escaped : EscapedText (some '"') t.toList spelling.toList := by
    rw [chars, written]
    have quote : EscapedText (some '"') ['\''] ['\''] :=
      escapedText_raw (by simp [isForbidden, isControl])
    have tab : EscapedText (some '"') ['\t', '\''] ['\\', 't', '\''] := .cons (.short rfl) quote
    have accent : EscapedText (some '"') ['é', '\t', '\''] ['\\', 'u', '0', '0', 'e', '9', '\\', 't', '\''] :=
      .cons (@SpelledChar.code (some '"') 'é' ['0', '0', 'e', '9'] rfl (by simp [Digits.digit?]) (by decide)) tab
    have closed := EscapedText.cons (@SpelledChar.short (some '"') '"' '"' rfl) accent
    have space := EscapedText.cons (@SpelledChar.plain (some '"') ' ' rfl (by decide) (by decide) (by decide)) closed
    exact .cons (.plain rfl (by decide) (by decide) (by decide)) (.dollar (by simp [IsOpener, isIdentifierStart]) space)
  have decodes := @escaped_text_decodes Unit (some '"') (Or.inr (Or.inl rfl)) t spelling escaped
  refine ⟨escaped, ?_, ?_⟩
  · have behind : ")".toList = [')'] := by decide
    obtain ⟨s, opened, read⟩ := decodes.1 (by decide) 16 ")" (fun none => by cases none) (by simp [behind]) (by decide)
    have size : 1 + spelling.length = 15 := by decide
    rw [size, behind] at read
    exact ⟨s, opened, read⟩
  · obtain ⟨expression, compiled, evaluated⟩ := decodes.2 session (by decide)
    exact ⟨expression, compiled, evaluated session⟩

end Session

end TemplateExpr
