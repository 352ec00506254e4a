/-!
Parts of texts: a text at the beginning or the end of another one, its first place in it, and what is put
in its place.
-/
namespace TemplateExpr

def dropLead? : List Char → List Char → Option (List Char)
  | [], cs => some cs
  | _ :: _, [] => none
  | l :: lead, c :: cs => if l = c then dropLead? lead cs else none

theorem dropLead?_append (lead rest : List Char) : dropLead? lead (lead ++ rest) = some rest := by
  induction lead with
  | nil => rfl
  | cons l lead ih => simp [dropLead?, ih]

theorem dropLead?_eq_some_iff {lead cs rest : List Char} :
    dropLead? lead cs = some rest ↔ cs = lead ++ rest := by
  constructor
  · intro h
    induction lead generalizing cs with
    | nil => exact Option.some.inj h
    | cons l lead ih =>
      cases cs with
      | nil => cases h
      | cons c cs =>
        by_cases same : l = c
        · subst same
          have tail : cs = lead ++ rest := ih (by simpa [dropLead?] using h)
          rw [tail, List.cons_append]
        · simp [dropLead?, same] at h
  · intro h
    rw [h]
    exact dropLead?_append lead rest

def dropTrail? (trail cs : List Char) : Option (List Char) :=
  (dropLead? trail.reverse cs.reverse).map List.reverse

theorem dropTrail?_eq_some_iff {trail cs front : List Char} :
    dropTrail? trail cs = some front ↔ cs = front ++ trail := by
  have reversed : cs.reverse = trail.reverse ++ front.reverse ↔ cs = front ++ trail := by
    rw [← List.reverse_append, List.reverse_inj]
  rw [dropTrail?, Option.map_eq_some_iff, ← reversed, ← dropLead?_eq_some_iff]
  constructor
  · rintro ⟨rest, found, rfl⟩
    rwa [List.reverse_reverse]
  · intro found
    exact ⟨_, found, List.reverse_reverse front⟩

def splitAtMark? (mark : Char) (cs : List Char) : Option (List Char × List Char) :=
  match cs.dropWhile (· != mark) with
  | [] => none
  | _ :: rest => some (cs.takeWhile (· != mark), rest)

theorem splitAtMark?_of_mark {mark : Char} {before : List Char} (first : mark ∉ before) (rest : List Char) :
    splitAtMark? mark (before ++ mark :: rest) = some (before, rest) := by
  have other : ∀ c ∈ before, (c != mark) = true := fun c mem => bne_iff_ne.mpr fun same => first (same ▸ mem)
  have stop : ¬ (mark != mark) = true := by simp
  rw [splitAtMark?, List.dropWhile_append_of_pos other, List.dropWhile_cons_of_neg (p := (· != mark)) stop,
    List.takeWhile_append_of_pos other, List.takeWhile_cons_of_neg (p := (· != mark)) stop, List.append_nil]

theorem splitAtMark?_of_not_mem {mark : Char} {cs : List Char} (absent : mark ∉ cs) : splitAtMark? mark cs = none := by
  have other : ∀ c ∈ cs, (c != mark) = true := fun c mem => bne_iff_ne.mpr fun same => absent (same ▸ mem)
  have nothing : (cs ++ []).dropWhile (· != mark) = [] := List.dropWhile_append_of_pos other
  rw [List.append_nil] at nothing
  rw [splitAtMark?, nothing]

def StandsAt (part text : String) (index : Nat) : Prop :=
  ∃ before after : String, text = before ++ part ++ after ∧ before.length = index

theorem standsAt_iff_splits {part text : String} {index : Nat} :
    StandsAt part text index ↔
      ∃ (place : text.toSlice.Pos) (before after : String),
        place.Splits before (part ++ after) ∧ before.length = index := by
  constructor
  · rintro ⟨before, after, whole, length⟩
    have joined : text.toSlice.copy = before ++ (part ++ after) := by
      rw [String.copy_toSlice, whole, String.append_assoc]
    exact ⟨_, before, after, String.Slice.Pos.splits_ofEqAppend joined, length⟩
  · rintro ⟨place, before, after, splits, length⟩
    refine ⟨before, after, ?_, length⟩
    rw [String.append_assoc, ← splits.eq_append, String.copy_toSlice]

theorem lt_iff_length_lt {s : String.Slice} {p q : s.Pos} {a b c d : String}
    (left : p.Splits a b) (right : q.Splits c d) : p < q ↔ a.length < c.length := by
  constructor
  · intro h
    obtain ⟨between, full, whole, _⟩ := (left.lt_iff_exists_eq_append right).mp h
    have positive : between.length ≠ 0 := fun zero => full (String.length_eq_zero_iff.mp zero)
    rw [whole, String.length_append]
    omega
  · intro h
    refine Std.not_le.mp fun swapped => ?_
    obtain ⟨between, whole, _⟩ := (right.le_iff_exists_eq_append left).mp swapped
    rw [whole, String.length_append] at h
    omega

/-- The number of characters before the first place of `part`. The empty part is at the beginning. -/
def firstIndex? (part text : String) : Option Nat :=
  if part = "" then some 0
  else (text.find? part).map fun place => (text.sliceTo place).copy.length

open String.Slice.Pattern.Model in
theorem firstIndex?_eq_some_iff {part text : String} {index : Nat} :
    firstIndex? part text = some index ↔
      StandsAt part text index ∧ ∀ earlier < index, ¬StandsAt part text earlier := by
  unfold firstIndex?
  split
  · rename_i empty
    subst empty
    have first : StandsAt "" text 0 := ⟨"", text, by simp, rfl⟩
    constructor
    · intro h
      obtain rfl := Option.some.inj h
      exact ⟨first, fun _ h => absurd h (Nat.not_lt_zero _)⟩
    · intro h
      have none_before := h.2 0
      cases index with
      | zero => rfl
      | succ n => exact absurd first (none_before (Nat.succ_pos n))
  · rename_i full
    have := ForwardStringSearcher.strictPatternModel full
    have := ForwardStringSearcher.lawfulToForwardSearcherModel full
    rw [String.find?_eq_find?_toSlice]
    simp only [Option.map_map, Option.map_eq_some_iff, Function.comp_apply, find?_eq_some_iff,
      ForwardStringSearcher.matchesAt_iff_splits]
    constructor
    · rintro ⟨place, ⟨⟨before, after, splits⟩, least⟩, length⟩
      have cut : (text.sliceTo (String.Pos.ofToSlice place)).copy = before :=
        (String.Slice.Pos.splits_ofToSlice_iff.mpr splits).copy_sliceTo_eq
      rw [cut] at length
      refine ⟨standsAt_iff_splits.mpr ⟨place, before, after, splits, length⟩, ?_⟩
      intro earlier less stands
      obtain ⟨other, start, rest, otherSplits, otherLength⟩ := standsAt_iff_splits.mp stands
      refine least other ?_ ⟨start, rest, otherSplits⟩
      rw [lt_iff_length_lt otherSplits splits]
      omega
    · rintro ⟨stands, least⟩
      obtain ⟨place, before, after, splits, length⟩ := standsAt_iff_splits.mp stands
      have cut : (text.sliceTo (String.Pos.ofToSlice place)).copy = before :=
        (String.Slice.Pos.splits_ofToSlice_iff.mpr splits).copy_sliceTo_eq
      refine ⟨place, ⟨⟨before, after, splits⟩, ?_⟩, ?_⟩
      · rintro other less ⟨start, rest, otherSplits⟩
        refine least start.length ?_ (standsAt_iff_splits.mpr ⟨other, start, rest, otherSplits, rfl⟩)
        rw [lt_iff_length_lt otherSplits splits] at less
        omega
      · rw [cut, length]

/-- Every place of `part` taken by `new`, from the left; places that overlap an earlier one are not counted.
Nothing is found of an empty part. -/
def replaceAll (part new text : String) : String :=
  if part = "" then text else text.replace part new

end TemplateExpr
