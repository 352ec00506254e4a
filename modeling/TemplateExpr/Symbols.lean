import TemplateExpr.Properties
import TemplateExpr.Text.Search
/-!
Variables are read from a chain of strategies; the first one that knows a name answers. A strategy within a
lead only knows names that begin with it, and asks another one for the rest of the name.
-/
namespace TemplateExpr

/-- The environment of a process: texts of the form `name=text`. -/
structure Environment where
  assignments : List String := []

namespace Environment

def ofPairs (pairs : List (String × String)) : Environment :=
  ⟨pairs.map fun (name, text) => name ++ "=" ++ text⟩

/-- The text of the first variable of a name; the empty name has none. -/
def read? (environment : Environment) (name : String) : Option String :=
  if name.isEmpty then none
  else
    environment.assignments.findSome? fun assignment =>
      (dropLead? (name.toList ++ ['=']) assignment.toList).map String.ofList

end Environment

inductive Strategy where
  | entries (entries : Entries)
  | callback (answer : String → Option String)
  | constant (text : String)
  | environment (environment : Environment)
  | within (lead : String) (inner : Strategy)

def Strategy.read? : Strategy → String → Option String
  | entries known, name => known.get? name
  | callback answer, name => answer name
  | constant text, _ => some text
  | environment known, name => known.read? name
  | within lead inner, name =>
    match dropLead? lead.toList name.toList with
    | some rest => inner.read? (String.ofList rest)
    | none => none

structure Symbols where
  strategies : List Strategy := []

namespace Symbols

def read? (symbols : Symbols) (name : String) : Option String :=
  symbols.strategies.findSome? (·.read? name)

def add (symbols : Symbols) (strategy : Strategy) : Symbols := ⟨symbols.strategies ++ [strategy]⟩

def append (symbols others : Symbols) : Symbols := ⟨symbols.strategies ++ others.strategies⟩

def ofEntries (entries : Entries) : Symbols := ⟨[.entries entries]⟩

theorem read?_append (symbols others : Symbols) (name : String) :
    (symbols.append others).read? name = (symbols.read? name).or (others.read? name) := by
  simp [append, read?, List.findSome?_append]

theorem read?_add (symbols : Symbols) (strategy : Strategy) (name : String) :
    (symbols.add strategy).read? name = (symbols.read? name).or (strategy.read? name) := by
  simp [add, read?, List.findSome?_append]

def size (symbols : Symbols) : Nat := symbols.strategies.length

def isEmpty (symbols : Symbols) : Bool := symbols.strategies.isEmpty

end Symbols

end TemplateExpr
