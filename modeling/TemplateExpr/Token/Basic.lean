import TemplateExpr.Numeral
/-!
Tokens. A template is read in two ways: its text, with the openers of interpolations, and the expressions
inside of these, with names, numerals and symbols.
-/
namespace TemplateExpr

inductive Keyword where
  | trueValue
  | falseValue
  | and
  | or
  | not
  | xor
  | isBefore
  | isAfter
  | toText
  | toNumber
  | toLogic
  | toDate
  deriving DecidableEq

inductive Symbol where
  | openParen
  | closeParen
  | openBracket
  | closeBracket
  | openBrace
  | closeBrace
  | comma
  | doubleComma
  | question
  | colon
  | hash
  | equal
  | notEqual
  | less
  | greater
  | lessEqual
  | greaterEqual
  | shiftLeft
  | shiftRight
  | pipe
  | ampersand
  | caret
  | doubleCaret
  | plus
  | minus
  | star
  | slash
  | doubleSlash
  | minusSlash
  | percent
  | doubleStar
  | join
  | tilde
  | doubleTilde
  deriving DecidableEq

inductive Token where
  | text
  | valueOpen
  | expressionOpen
  | lookBackOpen
  | functionOpen
  /-- The quote that closes a nested template. -/
  | follow
  | number (numeral : Numeral)
  | identifier
  /-- The quote that opens a nested template. -/
  | quote
  | keyword (word : Keyword)
  | symbol (symbol : Symbol)
  | stop
  deriving DecidableEq

structure Terminal where
  token : Token
  lexeme : String
  position : Nat

def Terminal.unexpected (t : Terminal) : Error :=
  .malformed t.position (if t.token = .stop then .unexpectedEnd else .unexpectedToken t.lexeme)

def Keyword.ofWord? : String → Option Keyword
  | "true" => some trueValue
  | "false" => some falseValue
  | "and" => some and
  | "or" => some or
  | "not" => some not
  | "xor" => some xor
  | "isBefore" => some isBefore
  | "isAfter" => some isAfter
  | "text" => some toText
  | "number" => some toNumber
  | "logic" => some toLogic
  | "date" => some toDate
  | _ => none

def Symbol.ofChar? : Char → Option Symbol
  | '(' => some openParen
  | ')' => some closeParen
  | '[' => some openBracket
  | ']' => some closeBracket
  | '\x7b' => some openBrace
  | '\x7d' => some closeBrace
  | ',' => some comma
  | '?' => some question
  | ':' => some colon
  | '=' => some equal
  | '<' => some less
  | '>' => some greater
  | '|' => some pipe
  | '&' => some ampersand
  | '^' => some caret
  | '+' => some plus
  | '-' => some minus
  | '*' => some star
  | '/' => some slash
  | '%' => some percent
  | '~' => some tilde
  | '#' => some hash
  | _ => none

/-- Tokens of two characters, which come before those of one. -/
def Token.ofPair? : Char → Char → Option Token
  | '$', '\x7b' => some valueOpen
  | '*', '*' => some (symbol .doubleStar)
  | '~', '>' => some (symbol .join)
  | '/', '/' => some (symbol .doubleSlash)
  | '-', '/' => some (symbol .minusSlash)
  | '<', '<' => some (symbol .shiftLeft)
  | '>', '>' => some (symbol .shiftRight)
  | '<', '=' => some (symbol .lessEqual)
  | '>', '=' => some (symbol .greaterEqual)
  | '<', '>' => some (symbol .notEqual)
  | '^', '^' => some (symbol .doubleCaret)
  | ',', ',' => some (symbol .doubleComma)
  | '~', '~' => some (symbol .doubleTilde)
  | _, _ => none

def isIdentifierStart (c : Char) : Bool := c.isAlpha || c == '_'

def isIdentifierPart (c : Char) : Bool :=
  c.isAlphanum || c == '_' || c == '.' || c == '[' || c == ']'

def scanIdentifier : Scan String := return String.ofList (← Scan.takeWhile isIdentifierPart)

end TemplateExpr
