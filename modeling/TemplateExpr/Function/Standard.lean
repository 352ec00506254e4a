import TemplateExpr.Decimal.Power
import TemplateExpr.Function.Registry
import TemplateExpr.Text.Case
import TemplateExpr.Text.Search
/-!
The standard functions. None of them looks at the host program, cancels a run or takes time. Counts and places
are the integer parts of numbers and have to fit in 64 bits; those below zero count as zero.
-/
namespace TemplateExpr.Standard

variable {σ : Type}

def answering (answer : List Value → Outcome) (arguments : List Value) (host : σ) : Reply σ where
  outcome := answer arguments
  host := host

def maxBytes : Nat := twoPow 63 - 1

def integer (function : String) (v : Value) : Except Error Int := do
  let n ← v.asNumber
  match n.truncInt64? with
  | some i => return i
  | none => throw (.arithmetic (.argumentOutOfRange function n))

def fail (args : List Value) : Outcome :=
  .error (.function (.failed ((args.map Value.asText).headD "")))

def length (text : Value) : Value := .ofInt text.asText.length

def upper (text : Value) : Value := .text (CaseTransform.upper.apply text.asText)

def lower (text : Value) : Value := .text (CaseTransform.lower.apply text.asText)

def trim (text : Value) : Value := .text (trimText text.asText)

/-- The characters from `start` on, at most `count` of them. Empty text counts without a limit. -/
def substr (text start count : Value) : Except Error Value := do
  let start ← integer "substr" start
  let rest := text.asText.drop start.toNat
  if count.asText.isEmpty then return .text rest.copy
  else return .text (rest.take (← integer "substr" count).toNat).copy

/-- The number of characters before the first place of `needle`; -1 if there is none. -/
def find (text needle : Value) : Value :=
  match firstIndex? needle.asText text.asText with
  | some index => .ofInt index
  | none => .ofInt (-1)

def replace (text old new : Value) : Value :=
  .text (replaceAll old.asText new.asText text.asText)

/-- Breaks down if the text would be too long. -/
def repeated (text count : Value) : Outcome :=
  match integer "repeat" count with
  | .error e => .error e
  | .ok count =>
    if maxBytes < text.asText.utf8ByteSize * count.toNat then .breakdown (some "capacity overflow")
    else if text.asText.isEmpty then .value (.text "")
    else .value (.text (String.join (List.replicate count.toNat text.asText)))

/-- Adds the first character of `fill`, or blanks, up to `width` characters. Breaks down if the text would
be too long. -/
def pad (text width fill : Value) : Outcome :=
  match integer "pad" width with
  | .error e => .error e
  | .ok width =>
    let missing := width.toNat - text.asText.length
    if maxBytes < text.asText.utf8ByteSize + missing then .breakdown (some "capacity overflow")
    else
      .value (.text (text.asText.pushn (fill.asText.front?.getD ' ') missing))

def ascii (text : Value) : Value := .ofInt ((text.asText.front?.map Char.toNat).getD 0)

def char (code : Value) : Except Error Value := do
  let code ← integer "char" code
  if 0 ≤ code ∧ code.toNat.isValidChar then return .text (Char.ofNat code.toNat).toString
  else throw (.arithmetic (.notCodePoint code))

def abs (n : Value) : Except Error Value := return .number (← n.asNumber).abs

/-- Halves are rounded away from zero. -/
def round (n places : Value) : Except Error Value := do
  let places ← integer "round" places
  match (← n.asNumber).roundToScale places .halfUp with
  | .ok rounded => return .number rounded
  | .error fault => throw (.arithmetic fault)

def trunc (n : Value) : Except Error Value := return .ofInt (← n.asNumber).trunc

def sqrt (n : Value) : Except Error Value := do
  match (← n.asNumber).sqrt with
  | .ok root => return .number root
  | .error fault => throw (.arithmetic fault)

/-- The first of the numbers that no other one is ordered `wanted` before. -/
def extreme (wanted : Ordering) (best : Value) : List Value → Except Error Value
  | [] => .ok best
  | candidate :: rest => do
    if (← candidate.asNumber).compare (← best.asNumber) == wanted then extreme wanted candidate rest
    else extreme wanted best rest

def extremeOf (wanted : Ordering) : List Value → Outcome
  | [] => .breakdown none
  | first :: rest => .ofExcept (extreme wanted first rest)

def unary (answer : Value → Outcome) : List Value → Outcome
  | [a] => answer a
  | _ => .breakdown none

def binary (answer : Value → Value → Outcome) : List Value → Outcome
  | [a, b] => answer a b
  | _ => .breakdown none

def ternary (answer : Value → Value → Value → Outcome) : List Value → Outcome
  | [a, b, c] => answer a b c
  | _ => .breakdown none

def required (name : String) (kind : Kind) : Parameter σ where
  name := name
  kind := some kind

def optional (name : String) (kind : Option Kind) (fallback : Value) : Parameter σ where
  name := name
  kind := kind
  fallback := some (.constant fallback)

def functions (clock : Timestamp) : List (Function σ) :=
  [ { name := "fail"
      parameters := [optional "message" (some .text) (.text "fail() called")]
      body := answering fail },
    { name := "length"
      parameters := [required "text" .text]
      body := answering (unary fun a => .value (length a)) },
    { name := "upper"
      parameters := [required "text" .text]
      body := answering (unary fun a => .value (upper a)) },
    { name := "lower"
      parameters := [required "text" .text]
      body := answering (unary fun a => .value (lower a)) },
    { name := "trim"
      parameters := [required "text" .text]
      body := answering (unary fun a => .value (trim a)) },
    { name := "substr"
      parameters := [required "text" .text, required "start" .number, optional "count" none (.text "")]
      body := answering (ternary fun a b c => .ofExcept (substr a b c)) },
    { name := "find"
      parameters := [required "text" .text, required "needle" .text]
      body := answering (binary fun a b => .value (find a b)) },
    { name := "replace"
      parameters := [required "text" .text, required "from" .text, required "to" .text]
      body := answering (ternary fun a b c => .value (replace a b c)) },
    { name := "repeat"
      parameters := [required "text" .text, required "count" .number]
      body := answering (binary repeated) },
    { name := "pad"
      parameters :=
        [required "text" .text, required "width" .number, optional "fill" (some .text) (.text " ")]
      body := answering (ternary pad) },
    { name := "ascii"
      parameters := [required "text" .text]
      body := answering (unary fun a => .value (ascii a)) },
    { name := "char"
      parameters := [required "code" .number]
      body := answering (unary fun a => .ofExcept (char a)) },
    { name := "abs"
      parameters := [required "number" .number]
      body := answering (unary fun a => .ofExcept (abs a)) },
    { name := "round"
      parameters := [required "number" .number, optional "places" (some .number) (.ofInt 0)]
      body := answering (binary fun a b => .ofExcept (round a b)) },
    { name := "trunc"
      parameters := [required "number" .number]
      body := answering (unary fun a => .ofExcept (trunc a)) },
    { name := "sqrt"
      parameters := [required "number" .number]
      body := answering (unary fun a => .ofExcept (sqrt a)) },
    { name := "min"
      parameters := [required "first" .number]
      variadic := some (some .number)
      body := answering (extremeOf .lt) },
    { name := "max"
      parameters := [required "first" .number]
      variadic := some (some .number)
      body := answering (extremeOf .gt) },
    { name := "now"
      body := answering fun _ => .value (.date clock) } ]

def registry (clock : Timestamp) : Registry σ := Registry.registerAll {} (functions clock)

end TemplateExpr.Standard
