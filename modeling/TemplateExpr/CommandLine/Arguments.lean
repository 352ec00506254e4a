import TemplateExpr.Duration
import TemplateExpr.Entries
import TemplateExpr.Text.Digits
/-!
The arguments of the command line. Flags are single letters after a dash and may share one argument. A flag
that takes a value takes the rest of its argument or, if there is none, the next argument, whatever that is.
After two dashes there are no more flags. One argument, the template, is no flag.
-/
namespace TemplateExpr.CommandLine

def usage : String :=
  "Usage: eel [-d] [-f[<file>]] [-t<secs>] [-p<digits>] [-Dkey=value]... [-e] <template>"

inductive SettingsFile where
  | search
  | skip
  | file (path : String)
  deriving DecidableEq

inductive Flag where
  | debug
  | expression
  | settings (file : SettingsFile)
  | timeout (limit : Nat)
  | precision (digits : Nat)
  | define (key value : String)
  deriving DecidableEq

inductive Fault where
  | missingValue (flag : Char)
  | duration (fault : Duration.Fault)
  | badPrecision (text : String)
  | badDefinition (text : String)
  | unknownFlag (flag : Char)
  | missingTemplate
  | tooManyTemplates (count : Nat)
  deriving DecidableEq

def Fault.message : Fault → String
  | missingValue flag => s!"-{flag} requires an argument"
  | duration fault => fault.message
  | badPrecision text => s!"invalid precision: {text}"
  | badDefinition text => s!"invalid definition: -D{text}"
  | unknownFlag flag => s!"unknown option: -{flag}"
  | missingTemplate => "missing template"
  | tooManyTemplates count => s!"too many arguments ({count})"

inductive TemplateSource where
  | argument (text : String)
  | standardInput
  deriving DecidableEq

structure Arguments where
  settings : SettingsFile := .search
  /-- In nanoseconds. -/
  timeout : Option Nat := none
  precision : Option Nat := none
  defines : Entries := {}
  expression : Bool := false
  debug : Bool := false
  template : TemplateSource := .standardInput
  deriving DecidableEq

/-- A definition is split at its first equals sign; without one its value is empty. -/
def definition? (text : String) : Except Fault Flag :=
  let (key, value) := (splitAtMark? '=' text.toList).getD (text.toList, [])
  if key.isEmpty then .error (.badDefinition text)
  else .ok (.define (String.ofList key) (String.ofList value))

def valueReader? : Char → Option (String → Except Fault Flag)
  | 't' => some fun text => ((Duration.ofText? text).map .timeout).mapError .duration
  | 'p' =>
    some fun text =>
      match Digits.unsigned? 32 text.toList with
      | some digits => .ok (.precision digits)
      | none => .error (.badPrecision text)
  | 'D' => some definition?
  | _ => none

def cluster (next : Option String) : List Char → Except Fault (List Flag × Bool)
  | [] => .ok ([], false)
  | 'd' :: rest => do
    let (flags, taken) ← cluster next rest
    return (.debug :: flags, taken)
  | 'e' :: rest => do
    let (flags, taken) ← cluster next rest
    return (.expression :: flags, taken)
  | ['f'] => .ok ([.settings .skip], false)
  | 'f' :: file => .ok ([.settings (.file (String.ofList file))], false)
  | flag :: rest =>
    match valueReader? flag with
    | none => .error (.unknownFlag flag)
    | some read =>
      match rest, next with
      | [], none => .error (.missingValue flag)
      | [], some text => do return ([← read text], true)
      | _, _ => do return ([← read (String.ofList rest)], false)

def split : List String → Except Fault (List Flag × List String)
  | [] => .ok ([], [])
  | arg :: rest =>
    match arg.toList with
    | ['-', '-'] => .ok ([], rest)
    | '-' :: c :: cs => do
      let (flags, taken) ← cluster rest.head? (c :: cs)
      let (more, others) ← split (if taken then rest.tail else rest)
      return (flags ++ more, others)
    | _ => do
      let (flags, others) ← split rest
      return (flags, arg :: others)
termination_by args => args.length
decreasing_by
  · simp only [List.length_cons]
    split
    · simp only [List.length_tail]
      omega
    · exact Nat.lt_succ_self _
  · exact Nat.lt_succ_self _

namespace Arguments

def put (arguments : Arguments) : Flag → Arguments
  | .debug => { arguments with debug := true }
  | .expression => { arguments with expression := true }
  | .settings file => { arguments with settings := file }
  | .timeout limit => { arguments with timeout := some limit }
  | .precision digits => { arguments with precision := some digits }
  | .define key value => { arguments with defines := arguments.defines.put key value }

def ofList (args : List String) : Except Fault Arguments := do
  let (flags, others) ← split args
  match others with
  | [] => throw .missingTemplate
  | [text] =>
    let template := if text = "-" then .standardInput else .argument text
    return { flags.foldl put {} with template }
  | _ => throw (.tooManyTemplates others.length)

def wrap (arguments : Arguments) (text : String) : String :=
  if arguments.expression then "$(" ++ text ++ ")" else text

def wrapBytes (arguments : Arguments) (bytes : List UInt8) : List UInt8 :=
  if arguments.expression then "$(".toByteArray.toList ++ bytes ++ ")".toByteArray.toList
  else bytes

end Arguments

end TemplateExpr.CommandLine
