import TemplateExpr.CommandLine.Program
import Std.Time.DateTime.Timestamp
/-!
The command line in the world outside: what the program asks of its system is gathered, and what it leaves
behind is printed.
-/
namespace TemplateExpr.CommandLine

def failureText : IO.Error → String
  | .noFileOrDirectory _ code details => s!"{details} (os error {code})"
  | .permissionDenied _ code details | .inappropriateType _ code details
  | .invalidArgument _ code details | .noSuchThing _ code details
  | .resourceExhausted _ code details => s!"{details} (os error {code})"
  | .otherError code details | .hardwareFault code details => s!"{details} (os error {code})"
  | e => toString e

def viewFile (path : String) : IO FileView := do
  try
    let handle ← IO.FS.Handle.mk path .read
    match String.fromUTF8? (← handle.readBinToEnd) with
    | some contents => return .text contents
    | none => return .unreadable "stream did not contain valid UTF-8"
  catch
    | e@(.noFileOrDirectory _ _ _) => return .absent (failureText e)
    | e => return .unreadable (failureText e)

def readEnvironment : IO Environment := do
  try
    let bytes ← IO.FS.readBinFile "/proc/self/environ"
    let pieces := bytes.toList.splitOn 0
    return ⟨pieces.filterMap fun piece => String.fromUTF8? piece.toByteArray⟩
  catch _ => return {}

def readClock : IO Timestamp := do
  let now ← Std.Time.Timestamp.now
  return ⟨now.toNanosecondsSinceUnixEpoch.val, 0⟩

def readInput (arguments : Arguments) : IO (List UInt8) := do
  match arguments.template with
  | .argument _ => return []
  | .standardInput => return (← (← IO.getStdin).readBinToEnd).toList

def gather (arguments : Arguments) : IO System := do
  let environment ← readEnvironment
  let view ←
    match settingsPath? environment arguments with
    | some path => viewFile path
    | none => pure (.absent "")
  return { environment, files := fun _ => view, input := ← readInput arguments, clock := ← readClock }

end TemplateExpr.CommandLine

open TemplateExpr.CommandLine in
def main (args : List String) : IO UInt32 := do
  let arguments := (Arguments.ofList args).toOption.getD { settings := .skip, template := .argument "" }
  let report := run (← gather arguments) args
  (← IO.getStderr).putStr (String.join (report.errors.map (· ++ "\n")))
  (← IO.getStdout).putStr report.output
  return UInt32.ofNat report.status
