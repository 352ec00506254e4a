import TemplateExpr.Symbols
import Mathlib.Logic.Basic
/-!
Chains of strategies, however they have been put together. A chain is built by adding strategies and by appending the
chains of other tables, which may be built so themselves. It reads a name as the list of its innermost strategies does,
each of which is asked for what follows all the leads around it.
-/
namespace TemplateExpr

/-- A strategy that is not within a lead, and the lead that it is asked behind. -/
structure Leaf where
  lead : String
  source : Strategy

namespace Leaf

def Answers (leaf : Leaf) (name text : String) : Prop :=
  ∃ rest, name = leaf.lead ++ rest ∧ leaf.source.read? rest = some text

def Knows (leaf : Leaf) (name : String) : Prop := ∃ text, leaf.Answers name text

end Leaf

namespace Strategy

inductive IsBare : Strategy → Prop where
  | entries (known : Entries) : IsBare (.entries known)
  | callback (answer : String → Option String) : IsBare (.callback answer)
  | constant (text : String) : IsBare (.constant text)
  | environment (known : Environment) : IsBare (.environment known)

theorem dropLead?_toList_iff {lead text rest : String} :
    (dropLead? lead.toList text.toList).map String.ofList = some rest ↔ text = lead ++ rest := by
  rw [Option.map_eq_some_iff, ← String.toList_inj, String.toList_append]
  constructor
  · rintro ⟨cs, dropped, rfl⟩
    rw [String.toList_ofList]
    exact dropLead?_eq_some_iff.mp dropped
  · intro same
    exact ⟨rest.toList, dropLead?_eq_some_iff.mpr same, String.ofList_toList⟩

theorem read?_environment (known : Environment) (name text : String) :
    (environment known).read? name = some text ↔ name ≠ "" ∧ ∃ front back,
      known.assignments = front ++ (name ++ "=" ++ text) :: back ∧
        ∀ earlier ∈ front, ∀ other, earlier ≠ name ++ "=" ++ other := by
  have lead : name.toList ++ ['='] = (name ++ "=").toList := by rw [String.toList_append]; rfl
  have silent (assignment : String) :
      (dropLead? (name ++ "=").toList assignment.toList).map String.ofList = none ↔
        ∀ other, assignment ≠ name ++ "=" ++ other := by
    rw [Option.eq_none_iff_forall_ne_some]
    exact forall_congr' fun other => not_congr dropLead?_toList_iff
  rw [read?, Environment.read?, lead]
  by_cases empty : name = ""
  · subst empty
    simp
  · rw [if_neg (by simpa using empty), List.findSome?_eq_some_iff]
    simp only [dropLead?_toList_iff, silent]
    constructor
    · rintro ⟨front, assignment, back, whole, rfl, others⟩
      exact ⟨empty, front, back, whole, others⟩
    · rintro ⟨_, front, back, whole, others⟩
      exact ⟨front, _, back, whole, rfl, others⟩

/-- What the bare strategies answer. Of several entries with one name the last counts, of several variables of the
environment the first, and the empty name has none. -/
theorem bare_answers (name text : String) :
    (∀ pairs, (entries (.ofList pairs)).read? name = some text ↔
      ∃ front back, pairs = front ++ (name, text) :: back ∧ ∀ later ∈ back, later.1 ≠ name) ∧
    (∀ answer, (callback answer).read? name = some text ↔ answer name = some text) ∧
    (∀ always, (constant always).read? name = some text ↔ always = text) ∧
    ∀ known, (environment known).read? name = some text ↔ name ≠ "" ∧ ∃ front back,
      known.assignments = front ++ (name ++ "=" ++ text) :: back ∧
        ∀ earlier ∈ front, ∀ other, earlier ≠ name ++ "=" ++ other :=
  ⟨fun pairs => Entries.get?_ofList_eq_some_iff pairs name text, fun _ => Iff.rfl, fun _ => Option.some_inj,
    fun known => read?_environment known name text⟩

def leaf : Strategy → Leaf
  | within lead inner => ⟨lead ++ inner.leaf.lead, inner.leaf.source⟩
  | entries known => ⟨"", entries known⟩
  | callback answer => ⟨"", callback answer⟩
  | constant text => ⟨"", constant text⟩
  | environment known => ⟨"", environment known⟩

theorem isBare_leaf (s : Strategy) : s.leaf.source.IsBare := by
  induction s with
  | entries known => exact .entries known
  | callback answer => exact .callback answer
  | constant text => exact .constant text
  | environment known => exact .environment known
  | within lead inner ih => exact ih

theorem read?_iff_answers_bare (s : Strategy) (name text : String) :
    s.read? name = some text ↔ Leaf.Answers ⟨"", s⟩ name text := by
  constructor
  · intro read
    exact ⟨name, String.empty_append.symm, read⟩
  · rintro ⟨rest, same, read⟩
    rwa [same, String.empty_append]

theorem read?_within (lead : String) (inner : Strategy) (name text : String) :
    (within lead inner).read? name = some text ↔ ∃ rest, name = lead ++ rest ∧ inner.read? rest = some text := by
  have rewritten : (within lead inner).read? name =
      ((dropLead? lead.toList name.toList).map String.ofList).bind inner.read? := by
    rw [read?]
    cases dropLead? lead.toList name.toList <;> rfl
  rw [rewritten, Option.bind_eq_some_iff]
  exact exists_congr fun rest => and_congr_left fun _ => dropLead?_toList_iff

theorem read?_iff_answers (s : Strategy) (name text : String) :
    s.read? name = some text ↔ s.leaf.Answers name text := by
  induction s generalizing name with
  | entries known => exact read?_iff_answers_bare _ name text
  | callback answer => exact read?_iff_answers_bare _ name text
  | constant answer => exact read?_iff_answers_bare _ name text
  | environment known => exact read?_iff_answers_bare _ name text
  | within lead inner ih =>
    rw [read?_within]
    constructor
    · rintro ⟨rest, rfl, read⟩
      obtain ⟨last, rfl, known⟩ := (ih rest).mp read
      exact ⟨last, by rw [leaf, String.append_assoc], known⟩
    · rintro ⟨last, rfl, known⟩
      exact ⟨inner.leaf.lead ++ last, by rw [leaf, String.append_assoc], (ih _).mpr ⟨last, rfl, known⟩⟩

theorem read?_eq_none_iff (s : Strategy) (name : String) : s.read? name = none ↔ ¬ s.leaf.Knows name := by
  rw [Option.eq_none_iff_forall_ne_some, Leaf.Knows, not_exists]
  exact forall_congr' fun text => not_congr (s.read?_iff_answers name text)

end Strategy

/-- How a chain is put together: strategies are added and tables are appended, the last one outermost. -/
inductive Chain where
  | empty
  | add (chain : Chain) (strategy : Strategy)
  | append (chain table : Chain)

namespace Chain

def symbols : Chain → Symbols
  | empty => {}
  | add chain strategy => chain.symbols.add strategy
  | append chain table => chain.symbols.append table.symbols

/-- The innermost strategies, the most important one first, those of a table in its place. -/
def leaves : Chain → List Leaf
  | empty => []
  | add chain strategy => chain.leaves ++ [strategy.leaf]
  | append chain table => chain.leaves ++ table.leaves

theorem leaves_eq (chain : Chain) : chain.leaves = chain.symbols.strategies.map Strategy.leaf := by
  induction chain with
  | empty => rfl
  | add chain strategy ih => rw [leaves, ih, symbols, Symbols.add, List.map_append, List.map_singleton]
  | append chain table ih ih' => rw [leaves, ih, ih', symbols, Symbols.append, List.map_append]

end Chain

def FirstAnswers (leaves : List Leaf) (name text : String) : Prop :=
  ∃ before leaf after, leaves = before ++ leaf :: after ∧ leaf.Answers name text ∧
    ∀ earlier ∈ before, ¬ earlier.Knows name

namespace Symbols

theorem read?_iff_firstAnswers (symbols : Symbols) (name text : String) :
    symbols.read? name = some text ↔ FirstAnswers (symbols.strategies.map Strategy.leaf) name text := by
  rw [read?, List.findSome?_eq_some_iff]
  constructor
  · rintro ⟨before, strategy, after, whole, read, silent⟩
    refine ⟨before.map Strategy.leaf, strategy.leaf, after.map Strategy.leaf, ?_,
      (strategy.read?_iff_answers name text).mp read, ?_⟩
    · rw [whole, List.map_append, List.map_cons]
    · intro earlier mem
      obtain ⟨s, inside, rfl⟩ := List.mem_map.mp mem
      exact (s.read?_eq_none_iff name).mp (silent s inside)
  · rintro ⟨front, leaf, back, whole, answers, silent⟩
    obtain ⟨before, others, split, rfl, rest⟩ := List.map_eq_append_iff.mp whole
    obtain ⟨strategy, after, rfl, rfl, rfl⟩ := List.map_eq_cons_iff.mp rest
    refine ⟨before, strategy, after, split, (strategy.read?_iff_answers name text).mpr answers, ?_⟩
    intro s inside
    exact (s.read?_eq_none_iff name).mpr (silent s.leaf (List.mem_map_of_mem inside))

theorem read?_eq_none_iff (symbols : Symbols) (name : String) :
    symbols.read? name = none ↔ ∀ leaf ∈ symbols.strategies.map Strategy.leaf, ¬ leaf.Knows name := by
  rw [read?, List.findSome?_eq_none_iff, List.forall_mem_map]
  exact forall₂_congr fun strategy _ => strategy.read?_eq_none_iff name

end Symbols

namespace Chain

inductive Extends (chain : Chain) : Chain → Prop where
  | self : Extends chain chain
  | add {longer : Chain} (behind : Extends chain longer) (strategy : Strategy) : Extends chain (longer.add strategy)
  | append {longer : Chain} (behind : Extends chain longer) (table : Chain) : Extends chain (longer.append table)

theorem Extends.read? {chain longer : Chain} (behind : chain.Extends longer) {name text : String}
    (read : chain.symbols.read? name = some text) : longer.symbols.read? name = some text := by
  induction behind with
  | self => exact read
  | add behind strategy ih => rw [symbols, Symbols.read?_add, ih, Option.some_or]
  | append behind table ih => rw [symbols, Symbols.read?_append, ih, Option.some_or]

theorem isBare_of_mem_leaves {chain : Chain} {leaf : Leaf} (mem : leaf ∈ chain.leaves) : leaf.source.IsBare := by
  rw [leaves_eq] at mem
  obtain ⟨strategy, -, rfl⟩ := List.mem_map.mp mem
  exact strategy.isBare_leaf

/-- A chain answers as the first of its leaves that knows the name, and what is put behind it later can only answer
names that no leaf knows. -/
theorem reads_first_leaf (chain : Chain) (name : String) :
    (∀ text, chain.symbols.read? name = some text ↔ FirstAnswers chain.leaves name text) ∧
      (chain.symbols.read? name = none ↔ ∀ leaf ∈ chain.leaves, ¬ leaf.Knows name) ∧
      (∀ leaf ∈ chain.leaves, leaf.source.IsBare) ∧ chain.symbols.size = chain.leaves.length ∧
      ∀ longer, chain.Extends longer → ∀ text, chain.symbols.read? name = some text →
        longer.symbols.read? name = some text := by
  refine ⟨fun text => ?_, ?_, fun leaf => isBare_of_mem_leaves, ?_, fun longer behind text => behind.read?⟩
  · rw [leaves_eq]
    exact chain.symbols.read?_iff_firstAnswers name text
  · rw [leaves_eq]
    exact chain.symbols.read?_eq_none_iff name
  · rw [leaves_eq, List.length_map, Symbols.size]

/-- The leads overlap, and all of them together are a name that the leaf is asked the empty one for. -/
theorem reads_first_leaf_nested :
    let nest := Strategy.within "a" (.within "" (.within "aa" (.entries ⟨[("", "bare"), ("a", "deep")]⟩)))
    let table := (empty.add nest).add (.constant "?")
    let chain := ((empty.add (.within "aa" (.entries ⟨[("b", "first")]⟩))).append table).add (.constant "never")
    ["aab", "aaa", "aaaa", "aa"].map chain.symbols.read? = [some "first", some "bare", some "deep", some "?"] ∧
      chain.leaves.map Leaf.lead = ["aa", "aaa", "", ""] ∧ FirstAnswers chain.leaves "aaa" "bare" := by
  intro nest table chain
  have read : chain.symbols.read? "aaa" = some "bare" := by decide
  exact ⟨by decide, by decide, ((reads_first_leaf chain "aaa").1 "bare").mp read⟩

end Chain

end TemplateExpr
