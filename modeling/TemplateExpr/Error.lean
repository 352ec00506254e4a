import TemplateExpr.Decimal.Text
/-!
Failures of reading, compiling and evaluating, as causes. The wording of each cause is given once, by
`message`; a failure that concerns a place in the source carries its position, counted from 1.
-/
namespace TemplateExpr

inductive Kind where
  | text
  | number
  | logic
  | date
  deriving DecidableEq

def Kind.name : Kind → String
  | text => "Text"
  | number => "Number"
  | logic => "Logic"
  | date => "Date"

inductive ReadFault where
  | invalidEncoding
  | stream (text : String)
  deriving DecidableEq

inductive SyntaxFault where
  | reservedChar
  | unexpectedChar (c : Char)
  | malformedEscape
  | unexpectedEnd
  | unexpectedToken (lexeme : String)
  | lookBackWithoutValue (lexeme : String)
  | lookBackOutOfRange
  deriving DecidableEq

inductive NumeralFault where
  | unexpectedEnd
  | unexpectedChar (c : Char)
  | missingDigits (mark : Char)
  | missingExponent
  | exponentOutOfRange
  deriving DecidableEq

mutual

inductive Error where
  | tooLong (limit : Nat)
  | unreadable (fault : ReadFault)
  | malformed (position : Nat) (fault : SyntaxFault)
  | badNumeral (position : Nat) (fault : NumeralFault)
  | conversion (source target : Kind) (text : String)
  | unknownSymbol (name : String)
  | fractional (position : Nat) (text : String)
  | outOfRange (position : Nat) (text : String)
  | function (fault : FunctionFault)
  | arithmetic (fault : ArithmeticFault)
  | timeout (seconds : Nat)
  | interrupted
  | execution (text : String)
  deriving DecidableEq

/-- Failures that concern a function. Arguments are counted from 1. -/
inductive FunctionFault where
  | unknown (name : String)
  | tooManyArguments (name : String) (most given : Nat)
  | missingArgument (name : String) (index : Nat) (parameter : String)
  | badArgument (name : String) (index : Nat) (cause : Error)
  | badReturn (name : String) (cause : Error)
  | invocation (name : String) (text : String)
  | failed (text : String)
  deriving DecidableEq

end

def codePoint (c : Char) : String :=
  let digits := (Nat.toDigits 16 c.toNat).map Char.toUpper
  String.ofList (List.replicate (4 - digits.length) '0' ++ digits)

/-- A character as it is named in a message: printable ASCII stands for itself, quotes and backslashes
are escaped, and all else is written by its code. -/
def escapedChar (c : Char) : String :=
  match c with
  | '\t' => "\\t"
  | '\r' => "\\r"
  | '\n' => "\\n"
  | '\'' => "\\'"
  | '"' => "\\\""
  | '\\' => "\\\\"
  | _ =>
    if 0x20 ≤ c.toNat ∧ c.toNat ≤ 0x7E then c.toString
    else "\\u\x7b" ++ String.ofList (Nat.toDigits 16 c.toNat) ++ "\x7d"

def ReadFault.message : ReadFault → String
  | invalidEncoding => "expression is not valid UTF-8"
  | stream text => text

def SyntaxFault.message : SyntaxFault → String
  | reservedChar => s!"unexpected character '{Char.ofNat 0xFFFF}' (0xFFFF)"
  | unexpectedChar c => s!"unexpected character '{escapedChar c}' (0x{codePoint c})"
  | malformedEscape => "malformed unicode escape"
  | unexpectedEnd => "unexpected end of expression"
  | unexpectedToken lexeme => s!"unexpected '{lexeme}'"
  | lookBackWithoutValue lexeme => s!"look-back '{lexeme}' does not name a previous value"
  | lookBackOutOfRange => "look-back out of range"

def NumeralFault.message : NumeralFault → String
  | unexpectedEnd => "unexpected end of number"
  | unexpectedChar c => s!"unexpected character '{c}' (0x{codePoint c})"
  | missingDigits mark => s!"missing digits after '0{mark}'"
  | missingExponent => "missing digits in exponent"
  | exponentOutOfRange => "exponent out of range"

def ArithmeticFault.message : ArithmeticFault → String
  | divisionByZero => "division by zero"
  | modulusByZero => "modulus by zero"
  | nonTerminating => "non-terminating decimal expansion"
  | invalidPower => "invalid power"
  | scaleOutOfRange => "scale out of range"
  | roundingNecessary => "rounding necessary"
  | invalidShiftCount text => s!"invalid shift count {text}"
  | notCodePoint code => s!"char: {code} is not a code point"
  | negativeRoot n => s!"sqrt of negative number {n.toText}"
  | rootOutOfRange n => s!"sqrt of {n.toText} is out of range"
  | argumentOutOfRange function n => s!"{function}: {n.toText} is out of range"
  | reported text => text

mutual

def Error.message : Error → String
  | .tooLong limit => s!"expression exceeds the maximum length of {limit} bytes"
  | .unreadable fault => s!"cannot read expression: {fault.message}"
  | .malformed position fault => s!"syntax error at position {position}: {fault.message}"
  | .badNumeral position fault => s!"invalid number at position {position}: {fault.message}"
  | .conversion source target text => s!"cannot convert {source.name} '{text}' to {target.name}"
  | .unknownSymbol name => s!"unknown symbol '{name}'"
  | .fractional position text => s!"unexpected fractional part in {text} at position {position}"
  | .outOfRange position text => s!"{text} is out of range at position {position}"
  | .function fault => fault.message
  | .arithmetic fault => s!"arithmetic error: {fault.message}"
  | .timeout seconds => s!"evaluation timed out after {seconds} seconds"
  | .interrupted => "evaluation was interrupted"
  | .execution text => s!"evaluation failed: {text}"

def FunctionFault.message : FunctionFault → String
  | .unknown name => s!"unknown function '{name}'"
  | .tooManyArguments name most given =>
    s!"function '{name}' accepts at most {most} arguments, got {given}"
  | .missingArgument name index parameter =>
    s!"function '{name}' is missing required argument {index} ('{parameter}')"
  | .badArgument name index cause => s!"function '{name}': bad argument {index}: {cause.message}"
  | .badReturn name cause => s!"function '{name}': bad return value: {cause.message}"
  | .invocation name text => s!"function '{name}' failed: {text}"
  | .failed text => text

end

def Error.position? : Error → Option Nat
  | .malformed position _ | .badNumeral position _ | .fractional position _
  | .outOfRange position _ => some position
  | _ => none

end TemplateExpr
