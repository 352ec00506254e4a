import TemplateExpr.Decimal.Rounding
import TemplateExpr.Duration
import TemplateExpr.Text.Digits
/-!
Settings files: lines of the form `key = value`. Blank lines and those that begin with a hash or a semicolon
say nothing. A bad line is reported and changes nothing; of several lines with one key the last counts.
-/
namespace TemplateExpr

inductive SettingFault where
  | notPair (line : String)
  | notByteCount (text : String)
  | notDigitCount (text : String)
  | unknownMode (text : String)
  | unknownKey (key : String)
  | duration (fault : Duration.Fault)
  deriving DecidableEq

def SettingFault.message : SettingFault → String
  | notPair line => s!"expected 'key = value', got '{line}'"
  | notByteCount text => s!"max_length: '{text}' is not a byte count"
  | notDigitCount text => s!"precision: '{text}' is not a digit count"
  | unknownMode text => s!"rounding: unknown mode '{text}'"
  | unknownKey key => s!"unknown setting '{key}'"
  | duration fault => fault.message

/-- A line, counted from 1, and what is wrong with it. -/
structure SettingError where
  line : Nat
  fault : SettingFault
  deriving DecidableEq

def SettingError.message (e : SettingError) : String := s!"line {e.line}: {e.fault.message}"

inductive SettingLine where
  | silent
  | noPair (text : String)
  | pair (key value : String)
  deriving DecidableEq

def SettingLine.ofChars (line : List Char) : SettingLine :=
  match trimBlanks line with
  | [] | '#' :: _ | ';' :: _ => silent
  | cs =>
    match splitAtMark? '=' cs with
    | none => noPair (String.ofList cs)
    | some (key, value) => pair (String.ofList (trimBlanks key)) (String.ofList (trimBlanks value))

structure Settings where
  maxLength : Option Nat := none
  /-- In nanoseconds. -/
  timeout : Option Nat := none
  precision : Option Nat := none
  rounding : Option RoundingMode := none
  deriving DecidableEq

namespace Settings

/-- Sets what the key names. Keys may be written in small or capital letters. -/
def set (key value : String) : EStateM SettingFault Settings Unit :=
  match String.ofList (key.toList.map Char.toLower) with
  | "max_length" =>
    match Digits.unsigned? 64 value.toList with
    | some bytes => modify ({ · with maxLength := some bytes })
    | none => throw (.notByteCount value)
  | "timeout" =>
    match Duration.ofText? value with
    | .ok limit => modify ({ · with timeout := some limit })
    | .error fault => throw (.duration fault)
  | "precision" =>
    match Digits.unsigned? 32 value.toList with
    | some digits => modify ({ · with precision := some digits })
    | none => throw (.notDigitCount value)
  | "rounding" =>
    match RoundingMode.ofText? value with
    | some mode => modify ({ · with rounding := some mode })
    | none => throw (.unknownMode value)
  | other => throw (.unknownKey other)

def obey : SettingLine → EStateM SettingFault Settings Unit
  | .silent => pure ()
  | .noPair text => throw (.notPair text)
  | .pair key value => set key value

/-- Reads lines, of which the first has the given number, and goes on behind those that fail. -/
def readLines (settings : Settings) (number : Nat) :
    List (List Char) → Settings × List SettingError
  | [] => (settings, [])
  | line :: rest =>
    match obey (.ofChars line) settings with
    | .ok () settings => settings.readLines (number + 1) rest
    | .error fault settings =>
      let (settings, errors) := settings.readLines (number + 1) rest
      (settings, ⟨number, fault⟩ :: errors)

def ofText (text : String) : Settings × List SettingError :=
  readLines {} 1 (textLines text.toList)

end Settings

end TemplateExpr
