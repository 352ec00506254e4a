import TemplateExpr.Value.Basic
/-!
A pool of constants. Equal texts and equal numbers share one entry; logic values and dates need none.
-/
namespace TemplateExpr

/-- The values held, in the order of their arrival. -/
structure Pool where
  entries : List Value := []

structure Interned where
  value : Value
  entry : Option Nat

namespace Pool

def holds : Kind → Bool
  | .text | .number => true
  | .logic | .date => false

def intern (pool : Pool) (v : Value) : Interned × Pool :=
  if holds v.kind then
    match pool.entries.findIdx? (· == v) with
    | some i => (⟨pool.entries.getD i v, some i⟩, pool)
    | none => (⟨v, some pool.entries.length⟩, ⟨pool.entries ++ [v]⟩)
  else (⟨v, none⟩, pool)

theorem intern_value (pool : Pool) (v : Value) : (pool.intern v).1.value = v := by
  unfold intern
  split
  · split
    · rename_i i found
      obtain ⟨inside, same, _⟩ := List.findIdx?_eq_some_iff_getElem.mp found
      have here : pool.entries[i]? = some v := by
        rw [List.getElem?_eq_getElem inside, eq_of_beq same]
      rw [List.getD_eq_getElem?_getD, here]
      rfl
    · rfl
  · rfl

theorem entries_intern (pool : Pool) (v : Value) : pool.entries <+: (pool.intern v).2.entries := by
  unfold intern
  split
  · split
    · exact List.prefix_refl _
    · exact List.prefix_append _ _
  · exact List.prefix_refl _

def size (pool : Pool) : Nat := pool.entries.length

def isEmpty (pool : Pool) : Bool := pool.entries.isEmpty

end Pool

/-- Whether two values handed out are one and the same. A logic value is the same as its equals; dates
are all different. -/
def Interned.same (a b : Interned) : Bool :=
  match a.entry, b.entry with
  | some i, some j => i == j
  | none, none =>
    match a.value, b.value with
    | .logic x, .logic y => x == y
    | _, _ => false
  | _, _ => false

end TemplateExpr
