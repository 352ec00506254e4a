import TemplateExpr.Text.Blank
import TemplateExpr.Token.Basic
/-!
Reading the tokens of an expression. White space and comments may stand between them. A comment begins with
two hashes and ends with two, or with its line. Of two tokens that fit, the longer one is taken.
-/
namespace TemplateExpr.Token

def atComment (s : Source) : Bool := s.current = some '#' && s.next = some '#'

def atTrivia (s : Source) : Bool := s.current.any isBlank || atComment s

def inComment (s : Source) : Bool :=
  s.current.isSome && s.current != some '\n' && !atComment s

def scanCommentBody : Scan (List Char) :=
  Scan.repeatWhile inComment (return (← Source.read).toList) <|
    Scan.consumes_bind
      (fun s c t hs h => Scan.consumes_read s c t (by simp_all [inComment]) h)
      (fun _ => Scan.shrinks_pure _)

/-- The two hashes or the line feed that end a comment. -/
def scanCommentEnd : Scan (List Char) := do
  let s ← get
  let first ← Source.read
  if atComment s then return first.toList ++ (← Source.read).toList
  else return first.toList

def scanComment : Scan (List Char) := do
  let first ← Source.read
  let second ← Source.read
  let body ← scanCommentBody
  return first.toList ++ second.toList ++ body ++ (← scanCommentEnd)

def scanTrifle : Scan (List Char) := fun s =>
  if s.current.any isBlank then (return (← Source.read).toList : Scan (List Char)) s
  else scanComment s

theorem consumes_scanTrifle : Scan.Consumes atTrivia scanTrifle := by
  intro s a t hs h
  have present : s.current.isSome = true := by
    cases hc : s.current <;> simp_all [atTrivia, atComment]
  unfold scanTrifle at h
  split at h
  · exact Scan.consumes_bind Scan.consumes_read (fun _ => Scan.shrinks_pure _) s a t present h
  · refine Scan.consumes_bind Scan.consumes_read (fun first => ?_) s a t present h
    refine Scan.shrinks_bind Scan.shrinks_read fun second => ?_
    refine Scan.shrinks_bind Scan.shrinks_repeatWhile fun body => ?_
    refine Scan.shrinks_bind ?_ fun _ => Scan.shrinks_pure _
    refine Scan.shrinks_bind Scan.shrinks_get fun u => ?_
    refine Scan.shrinks_bind Scan.shrinks_read fun c => ?_
    split
    · exact Scan.shrinks_bind Scan.shrinks_read fun _ => Scan.shrinks_pure _
    · exact Scan.shrinks_pure _

def scanTrivia : Scan (List Char) :=
  Scan.repeatWhile atTrivia scanTrifle consumes_scanTrifle

def scanTerminal : Scan Terminal := do
  let s ← get
  match s.current with
  | none => return ⟨stop, "", s.position⟩
  | some c =>
    if c.isDigit || c == '.' && s.next.any Char.isDigit then
      let numeral ← Numeral.scan
      return ⟨number numeral, numeral.text, s.position⟩
    else if isIdentifierStart c then
      let word ← scanIdentifier
      return ⟨((Keyword.ofWord? word).map keyword).getD identifier, word, s.position⟩
    else if c = '"' ∨ c = '\'' then
      let _ ← Source.read
      return ⟨quote, c.toString, s.position⟩
    else
      match s.next.bind (ofPair? c) with
      | some token =>
        let _ ← Source.read
        let second ← Source.read
        return ⟨token, String.ofList (c :: second.toList), s.position⟩
      | none =>
        match Symbol.ofChar? c with
        | some single =>
          let _ ← Source.read
          return ⟨symbol single, c.toString, s.position⟩
        | none => throw (.malformed s.position (.unexpectedChar c))

def nextExpression : Scan Terminal := do
  let _ ← scanTrivia
  scanTerminal

end TemplateExpr.Token
