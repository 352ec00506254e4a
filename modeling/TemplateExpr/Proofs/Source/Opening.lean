import TemplateExpr.Proofs.Source.Cursor
/-!
Opening a text. The bytes of a text bring back its characters, one arrival for each, so within the limit a
text without U+FFFF opens as the cursor `before` its characters. A text with U+FFFF either fails to open or
has it ahead.
-/
namespace TemplateExpr

theorem toList_loop (bytes : ByteArray) (i : Nat) (taken : List UInt8) :
    ByteArray.toList.loop bytes i taken = taken.reverse ++ bytes.data.toList.drop i := by
  fun_induction ByteArray.toList.loop bytes i taken with
  | case1 i taken inside ih =>
    have size : i < bytes.data.toList.length := inside
    have here : bytes.get! i = bytes.data.toList[i] := by
      change bytes.data[i]! = _
      rw [getElem!_pos bytes.data i inside]
      exact (Array.getElem_toList inside).symm
    rw [ih, List.reverse_cons, List.append_assoc, here, List.singleton_append,
      ← List.drop_eq_getElem_cons size]
  | case2 i taken outside =>
    have size : bytes.data.toList.length ≤ i := Nat.le_of_not_lt outside
    rw [List.drop_eq_nil_of_le size, List.append_nil]

theorem toList_toByteArray (bytes : List UInt8) : bytes.toByteArray.toList = bytes := by
  rw [ByteArray.toList, toList_loop, List.toList_data_toByteArray]
  rfl

namespace Arrival

def ofChar (c : Char) : Arrival := if c.toNat = 0xFFFF then reserved else char c

theorem width?_of_firstByte {b : UInt8} (h : b.IsUTF8FirstByte) :
    width? b = some (b.utf8ByteSize h) := by
  have all : ∀ n : Fin 256, ∀ h : (UInt8.ofFin n).IsUTF8FirstByte,
      width? (UInt8.ofFin n) = some ((UInt8.ofFin n).utf8ByteSize h) := by decide +kernel
  exact all b.toFin h

theorem ofGroup_utf8EncodeChar (c : Char) : ofGroup (String.utf8EncodeChar c) = ofChar c := by
  have decoded : (String.utf8EncodeChar c).toByteArray.utf8DecodeChar? 0 = some c := by
    rw [← List.utf8Encode_singleton]
    exact List.utf8DecodeChar?_utf8Encode_singleton
  rw [ofGroup, decoded]
  rfl

theorem width?_head {c : Char} {first : UInt8} {rest : List UInt8}
    (h : String.utf8EncodeChar c = first :: rest) : width? first = some c.utf8Size := by
  have decodes : ((first :: rest).toByteArray.utf8DecodeChar? 0).isSome = true := by
    rw [← h, ← List.utf8Encode_singleton, List.utf8DecodeChar?_utf8Encode_singleton]
    rfl
  have same : (first :: rest).toByteArray.utf8DecodeChar 0 decodes = c := by
    apply Option.some.inj
    rw [ByteArray.utf8DecodeChar, Option.some_get, ← h, ← List.utf8Encode_singleton,
      List.utf8DecodeChar?_utf8Encode_singleton]
  have size := ByteArray.utf8Size_utf8DecodeChar (h := decodes)
  have width := width?_of_firstByte (ByteArray.isUTF8FirstByte_of_isSome_utf8DecodeChar? decodes)
  rw [← size, same, List.getElem_toByteArray] at width
  exact width

theorem ofBytes_utf8EncodeChar_append {budget : Nat} {c : Char} (failing : Bool)
    (fits : c.utf8Size ≤ budget) (more : List UInt8) :
    ofBytes budget failing (String.utf8EncodeChar c ++ more) =
      ofChar c :: ofBytes (budget - c.utf8Size) failing more := by
  cases encoded : String.utf8EncodeChar c with
  | nil =>
    have length := String.length_utf8EncodeChar c
    rw [encoded, List.length_nil] at length
    exact absurd length.symm (Nat.ne_of_gt c.utf8Size_pos)
  | cons first rest =>
    have length : rest.length + 1 = c.utf8Size := by
      rw [← String.length_utf8EncodeChar c, encoded, List.length_cons]
    have share : min c.utf8Size budget - 1 = rest.length := by omega
    rw [List.cons_append, ofBytes, if_neg (by omega), width?_head encoded]
    simp only [share, List.take_left, List.drop_left]
    rw [if_pos (by omega), ← encoded, ofGroup_utf8EncodeChar]

theorem ofBytes_flatMap_utf8EncodeChar {budget : Nat} (failing : Bool) {cs : List Char}
    (fits : (cs.flatMap String.utf8EncodeChar).length ≤ budget) :
    ofBytes budget failing (cs.flatMap String.utf8EncodeChar) = cs.map ofChar := by
  induction cs generalizing budget with
  | nil => rw [List.flatMap_nil, ofBytes, List.map_nil]
  | cons c cs ih =>
    rw [List.flatMap_cons, List.length_append, String.length_utf8EncodeChar] at fits
    rw [List.flatMap_cons, ofBytes_utf8EncodeChar_append failing (by omega), ih (by omega),
      List.map_cons]

theorem map_ofChar_sound {cs : List Char} (sound : ∀ c ∈ cs, c.toNat ≠ 0xFFFF) :
    cs.map ofChar = cs.map char := by
  refine List.map_congr_left fun c mem => ?_
  rw [ofChar, if_neg (sound c mem)]

end Arrival

namespace Source

theorem bytes_of_text (text : String) :
    text.toByteArray.toList = text.toList.flatMap String.utf8EncodeChar := by
  rw [← String.utf8Encode_toList, List.utf8Encode, toList_toByteArray]

theorem arrivals_of_text {limit : Nat} {text : String} (fits : text.utf8ByteSize ≤ limit)
    (failing : Bool) :
    Arrival.ofBytes limit failing text.toByteArray.toList = text.toList.map Arrival.ofChar := by
  rw [bytes_of_text]
  refine Arrival.ofBytes_flatMap_utf8EncodeChar failing ?_
  rw [← bytes_of_text, ← String.utf8Encode_toList, List.utf8Encode, toList_toByteArray,
    ← List.size_toByteArray, ← List.utf8Encode, String.utf8Encode_toList, String.size_toByteArray]
  exact fits

def unopened (limit : Nat) (arrivals : List Arrival) : Source where
  current := none
  next := none
  position := 1
  upcoming := arrivals
  failure := none
  limit

def opening (limit : Nat) (arrivals : List Arrival) : Except Error Source :=
  match fetch (unopened limit arrivals) with
  | .error e _ => .error e
  | .ok first s =>
    match fetch { s with current := first } with
    | .error e _ => .error e
    | .ok second s => .ok { s with next := second }

theorem ofBytes_eq (limit : Nat) (bytes : List UInt8) :
    ofBytes limit bytes none = opening (max limit minLimit) (Arrival.ofBytes (max limit minLimit) false bytes) := rfl

theorem ofText_eq {limit : Nat} {text : String} (fits : text.utf8ByteSize ≤ max limit minLimit) :
    ofText limit text = opening (max limit minLimit) (text.toList.map Arrival.ofChar) := by
  rw [ofText, ofBytes_eq, arrivals_of_text fits]

theorem opening_chars (limit : Nat) (cs : List Char) :
    opening limit (cs.map .char) = .ok (before limit 1 cs) := by
  cases cs with
  | nil => rfl
  | cons c cs => cases cs <;> rfl

theorem ofText_before {limit : Nat} {text : String} (fits : text.utf8ByteSize ≤ max limit minLimit)
    (sound : ∀ c ∈ text.toList, c.toNat ≠ 0xFFFF) :
    ofText limit text = .ok (before (max limit minLimit) 1 text.toList) := by
  rw [ofText_eq fits, Arrival.map_ofChar_sound sound, opening_chars]

theorem ofText_reservedAhead {limit : Nat} {text : String} {s : Source} {c : Char}
    (fits : text.utf8ByteSize ≤ limit) (mem : c ∈ text.toList) (bad : c.toNat = 0xFFFF)
    (opened : ofText limit text = .ok s) : ReservedAhead s := by
  have reserved : Arrival.ofChar c = .reserved := if_pos bad
  rw [ofText_eq (Nat.le_trans fits (Nat.le_max_left ..))] at opened
  generalize text.toList = cs at mem opened
  -- the two characters that opening fetches cannot be U+FFFF, so it is among the others
  cases cs with
  | nil => cases mem
  | cons d cs =>
    by_cases first : d.toNat = 0xFFFF
    · simp [opening, fetch, unopened, Arrival.ofChar, first] at opened
    · cases cs with
      | nil =>
        rcases List.mem_cons.mp mem with same | none
        · exact absurd (same ▸ bad) first
        · cases none
      | cons e cs =>
        by_cases second : e.toNat = 0xFFFF
        · simp [opening, fetch, unopened, Arrival.ofChar, first, second] at opened
        · simp only [opening, fetch, unopened, List.map_cons, Arrival.ofChar, first, second, if_false,
            Except.ok.injEq] at opened
          subst opened
          refine ⟨?_, rfl, rfl⟩
          rcases List.mem_cons.mp mem with same | mem
          · exact absurd (same ▸ bad) first
          · rcases List.mem_cons.mp mem with same | mem
            · exact absurd (same ▸ bad) second
            · rw [← reserved]
              exact List.mem_map_of_mem mem

end Source

end TemplateExpr
