import TemplateExpr.Proofs.Source.Decoding
/-!
Where U+FFFF is refused. A source fetches it as lookahead, two reads before it would be read, so of a text within the
limit opening fails if it is among the first two characters, and otherwise the read fails that would bring it into
view. Opening names its place. A read names the place before it, since the cursor has not moved on yet.
-/
namespace TemplateExpr

namespace Source

/-- The `k`-th character, counted from 1, is the first U+FFFF. -/
structure FirstReserved (cs : List Char) (k : Nat) : Prop where
  counted : 0 < k
  here : ∃ c, cs[k - 1]? = some c ∧ c.toNat = 0xFFFF
  sound : ∀ c ∈ cs.take (k - 1), c.toNat ≠ 0xFFFF

variable {cs : List Char} {k : Nat}

theorem FirstReserved.split (first : FirstReserved cs k) :
    ∃ front c back, cs = front ++ c :: back ∧ front.length + 1 = k ∧ c.toNat = 0xFFFF ∧
      ∀ d ∈ front, d.toNat ≠ 0xFFFF := by
  obtain ⟨counted, ⟨c, here, reserved⟩, sound⟩ := first
  obtain ⟨j, rfl⟩ : ∃ j, k = j + 1 := ⟨k - 1, by omega⟩
  rw [Nat.add_sub_cancel] at here sound
  obtain ⟨inside, rfl⟩ := List.getElem?_eq_some_iff.mp here
  refine ⟨cs.take j, cs[j], cs.drop (j + 1), ?_, ?_, reserved, sound⟩
  · rw [← List.drop_eq_getElem_cons inside, List.take_append_drop]
  · rw [List.length_take, Nat.min_eq_left (Nat.le_of_lt inside)]

theorem map_ofChar_reserved {front back : List Char} {c : Char} (sound : ∀ d ∈ front, d.toNat ≠ 0xFFFF)
    (reserved : c.toNat = 0xFFFF) :
    (front ++ c :: back).map Arrival.ofChar = front.map .char ++ .reserved :: back.map Arrival.ofChar := by
  rw [List.map_append, List.map_cons, Arrival.map_ofChar_sound sound, Arrival.ofChar, if_pos reserved]

theorem opening_reserved {front : List Char} (few : front.length < 2) (limit : Nat) (later : List Arrival) :
    opening limit (front.map .char ++ .reserved :: later) =
      .error (.malformed (front.length + 1) .reservedChar) := by
  match front with
  | [] | [_] => rfl
  | _ :: _ :: _ =>
    simp only [List.length_cons] at few
    omega

theorem read_reserved (limit position : Nat) (c d : Char) (later : List Arrival) :
    ∃ t, read (barred limit position [c, d] (.reserved :: later)) =
      .error (.malformed (position + 1) .reservedChar) t := ⟨_, rfl⟩

theorem readTimes_to_bar {front : List Char} (two : 2 ≤ front.length) (limit position : Nat) (later : List Arrival) :
    ∃ c d, readTimes (front.length - 2) (barred limit position front later) =
      .ok ((front.take (front.length - 2)).map some) (barred limit (position + (front.length - 2)) [c, d] later) := by
  obtain ⟨first, c, d, rfl⟩ := last_two two
  have count : (first ++ [c, d]).length - 2 = first.length := by simp
  rw [count, List.take_left]
  have last : 2 ≤ [c, d].length := Nat.le_refl 2
  exact ⟨c, d, readTimes_barred last limit position first later⟩

/-- A text within the limit whose `k`-th character is its first U+FFFF fails with a syntax error: at place `k`, when it
is opened, if that is the first or the second character, and otherwise, after `k - 3` reads, at place `k - 1`. -/
theorem reserved_refused (limit : Nat) {bytes : List UInt8} (encoded : bytes.toByteArray = cs.utf8Encode)
    (fits : bytes.length ≤ max limit minLimit) (first : FirstReserved cs k) :
    (k ≤ 2 → ofBytes limit bytes none = .error (.malformed k .reservedChar)) ∧
    (2 < k → ∃ s t u, ofBytes limit bytes none = .ok s ∧
      readTimes (k - 3) s = .ok ((cs.take (k - 3)).map some) t ∧
      read t = .error (.malformed (k - 1) .reservedChar) u) := by
  obtain ⟨front, c, back, rfl, rfl, reserved, sound⟩ := first.split
  rw [List.utf8Encode, List.toByteArray_inj] at encoded
  subst encoded
  rw [ofBytes_eq, Arrival.ofBytes_flatMap_utf8EncodeChar false fits, map_ofChar_reserved sound reserved]
  constructor
  · intro early
    exact opening_reserved (by omega) _ _
  · intro late
    have two : 2 ≤ front.length := by omega
    have count : front.length + 1 - 3 = front.length - 2 := by omega
    have place : 1 + (front.length - 2) + 1 = front.length + 1 - 1 := by omega
    obtain ⟨c', d, passed⟩ := readTimes_to_bar two (max limit minLimit) 1 (.reserved :: back.map Arrival.ofChar)
    obtain ⟨u, refused⟩ :=
      read_reserved (max limit minLimit) (1 + (front.length - 2)) c' d (back.map Arrival.ofChar)
    rw [count, List.take_append_of_le_length (by omega), ← place]
    exact ⟨_, _, u, opening_later two _ _, passed, refused⟩

/-- Behind two characters, and in front of another one. -/
theorem reserved_refused_third :
    let cs := ['a', 'é', Char.ofNat 0xFFFF, 'b']
    let bytes : List UInt8 := [0x61, 0xC3, 0xA9, 0xEF, 0xBF, 0xBF, 0x62]
    bytes.toByteArray = cs.utf8Encode ∧ bytes.length ≤ max 7 minLimit ∧ FirstReserved cs 3 ∧
      ∃ s u, ofBytes 7 bytes none = .ok s ∧ read s = .error (.malformed 2 .reservedChar) u := by
  intro cs bytes
  have encoded : bytes.toByteArray = cs.utf8Encode := by decide
  have first : FirstReserved cs 3 := ⟨by decide, ⟨_, rfl, by decide⟩, by simp [cs]⟩
  obtain ⟨s, t, u, opened, passed, refused⟩ := (reserved_refused 7 encoded (by decide) first).2 (by decide)
  cases passed
  exact ⟨encoded, by decide, first, s, u, opened, refused⟩

/-- The third character is refused at the place of the second. -/
theorem reserved_misplaced :
    FirstReserved "ab\uFFFF".toList 3 ∧
      ∃ s u, ofText 1024 "ab\uFFFF" = .ok s ∧ read s = .error (.malformed 2 .reservedChar) u := by
  refine ⟨⟨by decide, ⟨_, rfl, by decide⟩, by simp⟩, ?_⟩
  rw [ofText_eq (by decide)]
  exact ⟨_, _, rfl, rfl⟩

end Source

end TemplateExpr
