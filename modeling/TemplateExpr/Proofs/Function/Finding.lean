import TemplateExpr.Proofs.Function.StandardCalls
/-!
Places in texts are numbers of characters. The place that is found of a part is the least one from which on the
characters begin with it, and at that place as many characters as the part is long are the part.
-/
namespace TemplateExpr

def BeginsAt (part text : String) (index : Nat) : Prop := part.toList <+: text.toList.drop index

def FirstAt (part text : String) (index : Nat) : Prop :=
  BeginsAt part text index ∧ ∀ earlier < index, ¬ BeginsAt part text earlier

variable {part text : String} {index : Nat}

theorem standsAt_iff : StandsAt part text index ↔ index ≤ text.length ∧ BeginsAt part text index := by
  constructor
  · rintro ⟨before, after, rfl, rfl⟩
    refine ⟨?_, after.toList, ?_⟩
    · simp only [String.length_append]
      omega
    · simp [← String.length_toList]
  · rintro ⟨inside, rest, begins⟩
    refine ⟨String.ofList (text.toList.take index), String.ofList rest, ?_, ?_⟩
    · apply String.toList_inj.mp
      rw [String.toList_append, String.toList_append, String.toList_ofList, String.toList_ofList, List.append_assoc,
        begins, List.take_append_drop]
    · rw [String.length_ofList, List.length_take, String.length_toList]
      omega

theorem FirstAt.inside (first : FirstAt part text index) : index ≤ text.length := by
  obtain ⟨begins, least⟩ := first
  by_contra beyond
  have past : text.toList.drop index = [] := by
    rw [List.drop_eq_nil_iff, String.length_toList]
    omega
  rw [BeginsAt, past, List.prefix_nil] at begins
  refine least 0 (by omega) ?_
  rw [BeginsAt, begins]
  exact List.nil_prefix

theorem firstIndex?_eq_some_iff_firstAt : firstIndex? part text = some index ↔ FirstAt part text index := by
  rw [firstIndex?_eq_some_iff]
  constructor
  · rintro ⟨stands, least⟩
    obtain ⟨inside, begins⟩ := standsAt_iff.mp stands
    refine ⟨begins, fun earlier less sooner => least earlier less ?_⟩
    exact standsAt_iff.mpr ⟨by omega, sooner⟩
  · intro first
    refine ⟨standsAt_iff.mpr ⟨first.inside, first.1⟩, fun earlier less stands => ?_⟩
    exact first.2 earlier less (standsAt_iff.mp stands).2

theorem firstIndex?_eq_none_iff : firstIndex? part text = none ↔ ∀ index, ¬ BeginsAt part text index := by
  constructor
  · intro missing index begins
    classical
    have some_ : ∃ index, BeginsAt part text index := ⟨index, begins⟩
    have first : FirstAt part text (Nat.find some_) := ⟨Nat.find_spec some_, fun _ less => Nat.find_min some_ less⟩
    rw [firstIndex?_eq_some_iff_firstAt.mpr first] at missing
    cases missing
  · intro nowhere
    cases found : firstIndex? part text with
    | none => rfl
    | some index => exact absurd (firstIndex?_eq_some_iff_firstAt.mp found).1 (nowhere index)

theorem BeginsAt.length_le (begins : BeginsAt part text index) : part.length ≤ text.length - index := by
  have shorter := List.IsPrefix.length_le begins
  rwa [List.length_drop, String.length_toList, String.length_toList] at shorter

theorem BeginsAt.take_eq (begins : BeginsAt part text index) :
    String.ofList ((text.toList.drop index).take part.length) = part := by
  rw [← String.length_toList, ← List.prefix_iff_eq_take.mp begins, String.ofList_toList]

theorem length_le_utf8ByteSize (s : String) : s.length ≤ s.utf8ByteSize := by
  induction s using String.push_induction with
  | empty => simp
  | push s c ih =>
    have more := c.utf8Size_pos
    rw [String.length_push, String.utf8ByteSize_push]
    omega

namespace Standard

variable {clock : Timestamp}

theorem fitsSigned_of_le {t : String} {n : Nat} (long : t.utf8ByteSize ≤ maxBytes) (inside : n ≤ t.length) :
    FitsSigned 64 n := by
  have bytes := length_le_utf8ByteSize t
  have most : maxBytes = 9223372036854775807 := rfl
  rw [Decimal.fitsSigned_64_iff]
  omega

theorem answers_substr_beginsAt {t k : String} {i : Nat} (long : t.utf8ByteSize ≤ maxBytes)
    (begins : BeginsAt k t i) (inside : i ≤ t.length) :
    Answers clock "substr" [.text t, .ofInt i, .ofInt k.length] (.text k) := by
  have shorter := begins.length_le
  have cut := substr_ofInt t (fitsSigned_of_le long inside) (fitsSigned_of_le (n := k.length) long (by omega))
  rw [Int.toNat_natCast, Int.toNat_natCast, begins.take_eq] at cut
  exact answers_substr cut

/-- A part is found at the first place from which on the characters of the text begin with it, and at -1 if there is
none. The characters from that place on, as many as the part is long, are the part. -/
theorem find_first (clock : Timestamp) (t k : String) :
    ∃ place : ℤ, Answers clock "find" [.text t, .text k] (.ofInt place) ∧
      (∀ i : ℕ, place = i ↔ FirstAt k t i) ∧ (place = -1 ↔ ∀ i, ¬ BeginsAt k t i) ∧
      (place ≠ -1 → t.utf8ByteSize ≤ maxBytes →
        Answers clock "length" [.text k] (.ofInt k.length) ∧
        Answers clock "substr" [.text t, .ofInt place, .ofInt k.length] (.text k)) := by
  have answer : Answers clock "find" [.text t, .text k] (find (.text t) (.text k)) := answers_find t k
  rw [find] at answer
  cases found : firstIndex? k t with
  | some i =>
    have first := firstIndex?_eq_some_iff_firstAt.mp found
    simp only [Value.asText, found] at answer
    refine ⟨i, answer, fun j => ?_, ?_, fun _ long => ⟨answers_length k, ?_⟩⟩
    · rw [Int.natCast_inj, ← firstIndex?_eq_some_iff_firstAt, found, Option.some_inj]
    · exact iff_of_false (by omega) fun nowhere => nowhere i first.1
    · exact answers_substr_beginsAt long first.1 first.inside
  | none =>
    have nowhere := firstIndex?_eq_none_iff.mp found
    simp only [Value.asText, found] at answer
    refine ⟨-1, answer, fun j => ?_, iff_of_true rfl nowhere, fun some_ => absurd rfl some_⟩
    exact iff_of_false (by omega) fun first => nowhere j first.1

end Standard

end TemplateExpr
