/-!
Named texts. Every name has one text, the one it was given last.
-/
namespace TemplateExpr

structure Entries where
  pairs : List (String × String) := []
  deriving DecidableEq

namespace Entries

def put (entries : Entries) (name text : String) : Entries :=
  ⟨entries.pairs.filter (·.1 != name) ++ [(name, text)]⟩

def get? (entries : Entries) (name : String) : Option String := entries.pairs.lookup name

def ofList (pairs : List (String × String)) : Entries :=
  pairs.foldl (fun entries (name, text) => entries.put name text) {}

theorem get?_empty (name : String) : get? {} name = none := rfl

theorem lookup_filter_ne {pairs : List (String × String)} {name key : String} (h : key ≠ name) :
    (pairs.filter (·.1 != name)).lookup key = pairs.lookup key := by
  induction pairs with
  | nil => rfl
  | cons pair pairs ih =>
    obtain ⟨first, text⟩ := pair
    by_cases same : first = name
    · subst same
      have other : (key == first) = false := beq_eq_false_iff_ne.mpr h
      simp [List.lookup_cons, other, ih]
    · simp [List.lookup_cons, same, ih]

theorem lookup_filter_self (pairs : List (String × String)) (name : String) :
    (pairs.filter (·.1 != name)).lookup name = none := by
  rw [List.lookup_eq_none_iff]
  intro pair mem
  have kept := (List.mem_filter.mp mem).2
  simpa [bne_comm] using kept

theorem get?_put (entries : Entries) (name text key : String) :
    (entries.put name text).get? key = if key = name then some text else entries.get? key := by
  unfold get? put
  simp only [List.lookup_append]
  split
  · rename_i same
    subst same
    rw [lookup_filter_self]
    simp
  · rename_i other
    rw [lookup_filter_ne other]
    simp [beq_eq_false_iff_ne.mpr other]

theorem get?_putAll (pairs : List (String × String)) (entries : Entries) (key : String) :
    (pairs.foldl (fun entries (name, text) => entries.put name text) entries).get? key =
      (pairs.reverse.lookup key).or (entries.get? key) := by
  induction pairs generalizing entries with
  | nil => rfl
  | cons first pairs ih =>
    obtain ⟨name, text⟩ := first
    rw [List.foldl_cons, ih, get?_put, List.reverse_cons, List.lookup_append, Option.or_assoc]
    by_cases same : key = name
    · simp [same]
    · simp [same, beq_eq_false_iff_ne.mpr same]

theorem get?_ofList (pairs : List (String × String)) (key : String) :
    (ofList pairs).get? key = pairs.reverse.lookup key := by
  rw [ofList, get?_putAll, get?_empty, Option.or_none]

theorem get?_ofList_eq_some_iff (pairs : List (String × String)) (key text : String) :
    (ofList pairs).get? key = some text ↔
      ∃ front back, pairs = front ++ (key, text) :: back ∧ ∀ later ∈ back, later.1 ≠ key := by
  rw [get?_ofList, List.lookup_eq_some_iff]
  constructor
  · rintro ⟨back, front, reversed, others⟩
    refine ⟨front.reverse, back.reverse, ?_, ?_⟩
    · rw [← List.reverse_reverse pairs, reversed]
      simp
    · intro later mem
      exact (bne_iff_ne.mp (others later (List.mem_reverse.mp mem))).symm
  · rintro ⟨front, back, rfl, others⟩
    refine ⟨back.reverse, front.reverse, by simp, ?_⟩
    intro later mem
    exact bne_iff_ne.mpr (others later (List.mem_reverse.mp mem)).symm

end Entries

end TemplateExpr
