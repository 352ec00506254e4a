import TemplateExpr.Entries
import TemplateExpr.Text.Blank
import TemplateExpr.Text.Digits
/-!
Properties: a text of lines that each give a key and its value. A line goes on in the next one after an odd
number of backslashes at its end. The key ends at the first equals sign, colon or white space without a
backslash before it. Comments begin with a hash or an exclamation mark.
-/
namespace TemplateExpr.Properties

/-- Whether the last backslash of a line stands by itself and not for the one before it. -/
def endsOpen (line : List Char) : Bool := (line.reverse.takeWhile (· == '\\')).length % 2 == 1

def isIgnored : List Char → Bool
  | [] => true
  | c :: _ => c == '#' || c == '!'

/-- The lines with their continuations. White space at the beginning of a line is dropped. `pending` is an
open line without its backslash. -/
def logicalLines (pending : Option (List Char)) : List (List Char) → List (List Char)
  | [] => pending.toList
  | raw :: rest =>
    let line := dropBlanks raw
    if pending.isNone && isIgnored line then logicalLines none rest
    else
      let start := pending.getD []
      if endsOpen line then logicalLines (some (start ++ line.dropLast)) rest
      else (start ++ line) :: logicalLines none rest

/-- What follows a key that ends in white space: one separator may still come. -/
def afterBlanks (cs : List Char) : List Char :=
  match dropBlanks cs with
  | [] => []
  | c :: rest => dropBlanks (if c = '=' ∨ c = ':' then rest else c :: rest)

def splitEntry : List Char → List Char × List Char
  | [] => ([], [])
  | '\\' :: c :: rest =>
    let (key, value) := splitEntry rest
    ('\\' :: c :: key, value)
  | c :: rest =>
    if c = '=' ∨ c = ':' then ([], dropBlanks rest)
    else if isBlank c then ([], afterBlanks rest)
    else
      let (key, value) := splitEntry rest
      (c :: key, value)

/-- The character that hexadecimal digits name. A plus sign may precede them. -/
def hexChar? (cs : List Char) : Option Char :=
  let digits :=
    match cs with
    | '+' :: rest => rest
    | _ => cs
  let code := Digits.valueIn 16 digits
  if digits ≠ [] ∧ digits.all (Digits.isDigitOf 16) ∧ code.isValidChar then some (Char.ofNat code)
  else none

/-- Decodes escapes. A `u` takes up to four characters, which stay if they name no character; any other
character that is no letter of an escape stands for itself. -/
def unescape : List Char → List Char
  | [] => []
  | ['\\'] => []
  | '\\' :: 't' :: rest => '\t' :: unescape rest
  | '\\' :: 'n' :: rest => '\n' :: unescape rest
  | '\\' :: 'r' :: rest => '\r' :: unescape rest
  | '\\' :: 'f' :: rest => '\x0c' :: unescape rest
  | '\\' :: 'u' :: rest =>
    (match hexChar? (rest.take 4) with
      | some c => [c]
      | none => '\\' :: 'u' :: rest.take 4) ++ unescape (rest.drop 4)
  | '\\' :: c :: rest => c :: unescape rest
  | c :: rest => c :: unescape rest
termination_by cs => cs.length
decreasing_by all_goals simp only [List.length_cons, List.length_drop]; omega

def entry (line : List Char) : String × String :=
  let (key, value) := splitEntry line
  (String.ofList (unescape key), String.ofList (unescape value))

def ofText (text : String) : Entries :=
  Entries.ofList ((logicalLines none (textLines text.toList)).map entry)

end TemplateExpr.Properties
