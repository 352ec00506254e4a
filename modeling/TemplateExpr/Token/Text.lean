import TemplateExpr.Text.Blank
import TemplateExpr.Token.Basic
/-!
Reading the text of a template. Text ends where an interpolation opens, at the quote that closes a nested
template, or at the end. A backslash writes a quote, a dollar, a backslash or a control character; before
anything else it stands for itself.
-/
namespace TemplateExpr.Token

/-- Characters that a template may hold only in escaped form. -/
def isForbidden (c : Char) : Bool := isControl c || 0xFFF0 ≤ c.toNat && c.toNat ≤ 0xFFFF

def escaped? : Char → Option Char
  | 't' => some '\t'
  | 'n' => some '\n'
  | 'r' => some '\r'
  | 'f' => some '\x0c'
  | 'b' => some '\x08'
  | '\\' => some '\\'
  | '"' => some '"'
  | '\'' => some '\''
  | '$' => some '$'
  | _ => none

def scanHex : Nat → Nat → Scan Nat
  | 0, code => pure code
  | count + 1, code => do
    let s ← get
    match s.current.bind Digits.digit? with
    | none => throw (.malformed s.position .malformedEscape)
    | some digit =>
      let _ ← Source.read
      scanHex count (code * 16 + digit)

/-- The character of four hexadecimal digits. Surrogates are none. -/
def scanCode : Scan (List Char) := do
  let start := (← get).position
  let code ← scanHex 4 0
  if code.isValidChar then return [Char.ofNat code]
  else throw (.malformed start .malformedEscape)

def scanEscaped : Scan (List Char) := do
  match (← get).current with
  | some 'u' =>
    let _ ← Source.read
    scanCode
  | some c =>
    match escaped? c with
    | some decoded =>
      let _ ← Source.read
      return [decoded]
    | none => return ['\\']
  | none => return ['\\']

def scanPiece : Scan (List Char) := fun s =>
  if s.current.any isForbidden then
    .error (.malformed s.position (.unexpectedChar (s.current.getD ' '))) s
  else
    (do
      let c ← Source.read
      if c = some '\\' then scanEscaped else return c.toList : Scan (List Char)) s

def opensInterpolation (s : Source) : Bool :=
  s.current = some '$' &&
    s.next.any fun c => c == '\x7b' || c == '(' || c == '[' || isIdentifierStart c

def inText (follow : Option Char) (s : Source) : Bool :=
  s.current.isSome && s.current != follow && !opensInterpolation s

theorem shrinks_scanHex (count code : Nat) : Scan.Shrinks (scanHex count code) := by
  induction count generalizing code with
  | zero => exact Scan.shrinks_pure code
  | succ count ih =>
    refine Scan.shrinks_bind Scan.shrinks_get fun s => ?_
    cases s.current.bind Digits.digit? with
    | none => exact Scan.shrinks_throw _
    | some digit => exact Scan.shrinks_bind Scan.shrinks_read fun _ => ih _

theorem shrinks_scanCode : Scan.Shrinks scanCode := by
  refine Scan.shrinks_bind Scan.shrinks_get fun s => ?_
  refine Scan.shrinks_bind (shrinks_scanHex 4 0) fun code => ?_
  split
  · exact Scan.shrinks_pure _
  · exact Scan.shrinks_throw _

theorem shrinks_scanEscaped : Scan.Shrinks scanEscaped := by
  refine Scan.shrinks_bind Scan.shrinks_get fun s => ?_
  split
  · exact Scan.shrinks_bind Scan.shrinks_read fun _ => shrinks_scanCode
  · split
    · exact Scan.shrinks_bind Scan.shrinks_read fun _ => Scan.shrinks_pure _
    · exact Scan.shrinks_pure _
  · exact Scan.shrinks_pure _

theorem consumes_scanPiece (follow : Option Char) :
    Scan.Consumes (inText follow) scanPiece := by
  intro s a t hs h
  unfold scanPiece at h
  split at h
  · cases h
  · refine Scan.consumes_bind Scan.consumes_read (fun c => ?_) s a t ?_ h
    · split
      · exact shrinks_scanEscaped
      · exact Scan.shrinks_pure _
    · simp only [inText, Bool.and_eq_true] at hs
      exact hs.1.1

def scanText (follow : Option Char) : Scan (List Char) :=
  Scan.repeatWhile (inText follow) scanPiece (consumes_scanPiece follow)

def opener? : Char → Option Token
  | '\x7b' => some valueOpen
  | '(' => some expressionOpen
  | '[' => some lookBackOpen
  | _ => none

/-- The next terminal of a template that ends at the quote `follow`, or at the end of the source. -/
def nextText (follow : Option Char) : Scan Terminal := do
  let s ← get
  match s.current with
  | none => return ⟨stop, "", s.position⟩
  | some c =>
    if some c = follow then
      let _ ← Source.read
      return ⟨Token.follow, c.toString, s.position⟩
    else
      match if c = '$' then s.next.bind opener? else none with
      | some token =>
        let _ ← Source.read
        let second ← Source.read
        return ⟨token, String.ofList (c :: second.toList), s.position⟩
      | none =>
        if c = '$' && s.next.any isIdentifierStart then
          let _ ← Source.read
          return ⟨functionOpen, ← scanIdentifier, s.position⟩
        else return ⟨text, String.ofList (← scanText follow), s.position⟩

end TemplateExpr.Token
