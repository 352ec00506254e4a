import TemplateExpr.Run
/-!
Functions. A function has parameters with kinds and defaults, maybe further arguments of one kind, and a kind
for its result. A call is refused before it runs if it has too many arguments or too few. When it runs, the
arguments are converted to the kinds of their parameters, in order, and the result to its kind.
-/
namespace TemplateExpr

inductive Fallback (σ : Type) where
  | constant (value : Value)
  /-- Asked for anew at every call. The host may keep count of that, but other than a body this always has a value: it
  does not break down, nor cancel the run, nor take time. -/
  | computed (provide : σ → Value × σ)

structure Parameter (σ : Type) where
  name : String
  /-- None takes any value as it is. -/
  kind : Option Kind := none
  /-- None makes the argument a required one. -/
  fallback : Option (Fallback σ) := none

inductive Outcome where
  | value (value : Value)
  | error (e : Error)
  | fault (cause : FunctionFault)
  | foreign (text : String)
  | breakdown (text : Option String)

structure Reply (σ : Type) where
  outcome : Outcome
  host : σ
  cancels : Bool := false
  /-- How long the body took, in nanoseconds. -/
  elapsed : Nat := 0

structure Function (σ : Type) where
  name : String
  parameters : List (Parameter σ) := []
  variadic : Option (Option Kind) := none
  returns : Option Kind := none
  body : List Value → σ → Reply σ

variable {σ : Type}

def Outcome.ofExcept : Except Error Value → Outcome
  | .ok v => .value v
  | .error e => .error e

def Outcome.result (name : String) : Outcome → Except Error Value
  | value v => .ok v
  | error e => .error e
  | fault cause => .error (.function cause)
  | foreign text => .error (.function (.invocation name text))
  | breakdown text => .error (.execution (text.getD "panic during evaluation"))

namespace Function

def firstMissing? (f : Function σ) (given : Nat) : Option (Nat × Parameter σ) :=
  ((f.parameters.zipIdx 1).drop given).findSome? fun (parameter, index) =>
    if parameter.fallback.isNone then some (index, parameter) else none

def checkArity (f : Function σ) (given : Nat) : Except FunctionFault Unit :=
  if f.variadic.isNone ∧ f.parameters.length < given then
    .error (.tooManyArguments f.name f.parameters.length given)
  else
    match f.firstMissing? given with
    | some (index, parameter) => .error (.missingArgument f.name index parameter.name)
    | none => .ok ()

def coerce (f : Function σ) (index : Nat) (kind : Option Kind) (v : Value) : Except Error Value :=
  match kind with
  | none => .ok v
  | some kind => (v.convert kind).mapError fun e => .function (.badArgument f.name index e)

/-- The value of an omitted argument. None is provided but by constants and by hosts that do nothing else. -/
def provide (f : Function σ) (index : Nat) (parameter : Parameter σ) : Eval σ Value := fun run =>
  match parameter.fallback with
  | some (.constant v) => .ok v run
  | some (.computed provide) =>
    let (v, host) := provide run.host
    .ok v { run with host }
  | none => .error (.function (.missingArgument f.name index parameter.name)) run

def coerceTail (f : Function σ) (index : Nat) : List Value → Except Error (List Value)
  | [] => .ok []
  | v :: rest => do
    let v ← f.coerce index f.variadic.join v
    return v :: (← f.coerceTail (index + 1) rest)

/-- The arguments that the body receives: one for each parameter, and those beyond. `index` is the number
of the first one. -/
def marshal (f : Function σ) (index : Nat) : List (Parameter σ) → List Value → Eval σ (List Value)
  | [], values => Run.lift (f.coerceTail index values)
  | parameter :: rest, [] => do
    let v ← f.provide index parameter
    let v ← Run.lift (f.coerce index parameter.kind v)
    return v :: (← f.marshal (index + 1) rest [])
  | parameter :: rest, v :: values => do
    let v ← Run.lift (f.coerce index parameter.kind v)
    return v :: (← f.marshal (index + 1) rest values)

/-- Runs the body. It counts for nothing if the time is up before it ends. -/
def perform (f : Function σ) (arguments : List Value) : Eval σ Value := fun run =>
  let reply := f.body arguments run.host
  let run :=
    { run with
      host := reply.host
      cancelled := run.cancelled || reply.cancels
      elapsed := run.elapsed + reply.elapsed
      events := .call f.name arguments :: run.events }
  if run.overdue then .error run.timeout run
  else
    match reply.outcome.result f.name with
    | .ok v => .ok v run
    | .error e => .error e run

def coerceResult (f : Function σ) (v : Value) : Except Error Value :=
  match f.returns with
  | none => .ok v
  | some kind => (v.convert kind).mapError fun e => .function (.badReturn f.name e)

def invoke (f : Function σ) (values : List Value) : Eval σ Value := do
  Run.lift ((f.checkArity values.length).mapError .function)
  let arguments ← f.marshal 1 f.parameters values
  let v ← f.perform arguments
  Run.lift (f.coerceResult v)

end Function

end TemplateExpr
