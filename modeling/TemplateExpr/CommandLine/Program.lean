import TemplateExpr.CommandLine.Arguments
import TemplateExpr.Session
/-!
The program of the command line: settings are loaded, the arguments override them, the template is evaluated
with the definitions of the arguments and the environment as its variables, and its text is printed.
-/
namespace TemplateExpr.CommandLine

inductive FileView where
  | text (contents : String)
  | unreadable (why : String)
  | absent (why : String)

structure System where
  environment : Environment
  files : String → FileView
  input : List UInt8
  clock : Timestamp

structure Report where
  status : Nat
  output : String
  errors : List String

/-- The directory for the settings of programs: one that the environment names by an absolute path, or
else a part of the home directory. -/
def configHome? (environment : Environment) : Option String :=
  match environment.read? "XDG_CONFIG_HOME" with
  | some path => if path.startsWith "/" then some path else fromHome
  | none => fromHome
where
  fromHome : Option String :=
    ((environment.read? "HOME").filter (!·.isEmpty)).map fun home => home ++ "/.config"

def userSettings? (environment : Environment) : Option String :=
  (configHome? environment).map fun directory => directory ++ "/eel/eel.conf"

def settingsPath? (environment : Environment) (arguments : Arguments) : Option String :=
  match arguments.settings with
  | .search => userSettings? environment
  | .skip => none
  | .file path => some path

def settingsFile? (system : System) (arguments : Arguments) : Option (String × FileView) :=
  match settingsPath? system.environment arguments with
  | none => none
  | some path =>
    match arguments.settings, system.files path with
    | .search, .absent _ => none
    | _, view => some (path, view)

def context (system : System) (arguments : Arguments) :
    Except String (Context Unit × List String) := do
  let start : Context Unit := .standard system.clock
  let (loaded, messages) ←
    match settingsFile? system arguments with
    | none => pure (start, [])
    | some (path, .text contents) =>
      let (loaded, errors) := start.applyText contents
      pure (loaded, errors.map fun e => s!"{path}: {e.message}")
    | some (path, .unreadable why) | some (path, .absent why) => throw s!"{path}: {why}"
  let overrides : Settings := { timeout := arguments.timeout, precision := arguments.precision }
  return (loaded.apply overrides, messages)

def symbols (system : System) (arguments : Arguments) : Symbols :=
  ⟨[.entries arguments.defines, .environment system.environment]⟩

def evaluate (system : System) (arguments : Arguments) (context : Context Unit) :
    Except Error String := do
  let session : Session Unit := { context, host := () }
  let (compiled, session) :=
    match arguments.template with
    | .argument text => session.compile (arguments.wrap text)
    | .standardInput => session.compileBytes (arguments.wrapBytes system.input) none
  let expression ← compiled
  let v ← (session.evaluate expression (symbols system arguments)).1
  return v.asText

def errorLine (message : String) : String := "eel: " ++ message

def run (system : System) (args : List String) : Report :=
  match Arguments.ofList args with
  | .error fault => ⟨1, "", [errorLine fault.message, usage]⟩
  | .ok arguments =>
    match context system arguments with
    | .error message => ⟨1, "", [errorLine message]⟩
    | .ok (context, messages) =>
      match evaluate system arguments context with
      | .error e => ⟨1, "", messages.map errorLine ++ [errorLine e.message]⟩
      | .ok text => ⟨0, text ++ "\n", messages.map errorLine⟩

end TemplateExpr.CommandLine
