import TemplateExpr.Proofs.Source.Opening
/-!
Bytes read as text. Within the limit a source yields the characters that its bytes encode, one for each read, with
the next one in view, and then nothing any more. If the bytes encode no text, or a text that is too long, reading
stops at what is no character; a text that is too long stops it at the first character that does not fit.
-/
namespace TemplateExpr

def byteSize : List Char → Nat
  | [] => 0
  | c :: cs => c.utf8Size + byteSize cs

theorem byteSize_cons (c : Char) (cs : List Char) : byteSize (c :: cs) = c.utf8Size + byteSize cs := rfl

theorem byteSize_append (front back : List Char) : byteSize (front ++ back) = byteSize front + byteSize back := by
  induction front with
  | nil => rw [List.nil_append, byteSize, Nat.zero_add]
  | cons c front ih => rw [List.cons_append, byteSize_cons, byteSize_cons, ih, Nat.add_assoc]

theorem length_flatMap_utf8EncodeChar (cs : List Char) :
    (cs.flatMap String.utf8EncodeChar).length = byteSize cs := by
  induction cs with
  | nil => rfl
  | cons c cs ih => simp [byteSize_cons, ih]

/-- The bytes are the encoding of these characters, and U+FFFF is not among them. -/
def Encodes (cs : List Char) (bytes : List UInt8) : Prop :=
  bytes.toByteArray = cs.utf8Encode ∧ ∀ c ∈ cs, c.toNat ≠ 0xFFFF

theorem encodes_iff {cs : List Char} {bytes : List UInt8} :
    Encodes cs bytes ↔ bytes = cs.flatMap String.utf8EncodeChar ∧ ∀ c ∈ cs, c.toNat ≠ 0xFFFF := by
  rw [Encodes, List.utf8Encode, List.toByteArray_inj]

theorem length_of_encodes {cs : List Char} {bytes : List UInt8} (encodes : Encodes cs bytes) :
    bytes.length = byteSize cs := by
  rw [(encodes_iff.mp encodes).1, length_flatMap_utf8EncodeChar]

/-- The `j`-th character, counted from 1, is the first one that does not fit into so many bytes. -/
structure FirstBeyond (limit : Nat) (cs : List Char) (j : Nat) : Prop where
  fits : byteSize (cs.take (j - 1)) ≤ limit
  beyond : limit < byteSize (cs.take j)

theorem split_beyond {limit : Nat} {cs : List Char} (long : limit < byteSize cs) :
    ∃ front c back, cs = front ++ c :: back ∧ byteSize front ≤ limit ∧ limit < byteSize front + c.utf8Size := by
  induction cs generalizing limit with
  | nil => exact absurd long (Nat.not_lt_zero _)
  | cons c cs ih =>
    rw [byteSize_cons] at long
    by_cases fits : c.utf8Size ≤ limit
    · obtain ⟨front, d, back, rfl, inside, beyond⟩ := @ih (limit - c.utf8Size) (by omega)
      refine ⟨c :: front, d, back, rfl, ?_, ?_⟩ <;> rw [byteSize_cons] <;> omega
    · exact ⟨[], c, cs, rfl, Nat.zero_le _, by simpa [byteSize] using fits⟩

theorem firstBeyond_of_split {limit : Nat} {front back : List Char} {c : Char} (fits : byteSize front ≤ limit)
    (beyond : limit < byteSize front + c.utf8Size) :
    FirstBeyond limit (front ++ c :: back) (front.length + 1) := by
  constructor
  · simpa using fits
  · have taken : (front ++ c :: back).take (front.length + 1) = front ++ [c] :=
      List.take_length_add_append 1
    rw [taken, byteSize_append]
    simpa [byteSize] using beyond

namespace Arrival

theorem ofBytes_nil (budget : Nat) (failing : Bool) : ofBytes budget failing [] = [] := by rw [ofBytes]

theorem width?_pos {first : UInt8} {width : Nat} (announced : width? first = some width) : 0 < width := by
  unfold width? at announced
  grind

theorem ofGroup_eq_char {first : UInt8} {rest : List UInt8} {c : Char} {width : Nat}
    (arrived : ofGroup (first :: rest) = char c) (announced : width? first = some width)
    (full : rest.length + 1 = width) : first :: rest = String.utf8EncodeChar c ∧ c.toNat ≠ 0xFFFF := by
  unfold ofGroup at arrived
  split at arrived
  · cases arrived
  · rename_i d decoded
    split at arrived
    · cases arrived
    · rename_i sound
      cases arrived
      refine ⟨?_, sound⟩
      obtain ⟨more, split⟩ := ByteArray.exists_of_utf8DecodeChar?_eq_some decoded
      have bytes : first :: rest = String.utf8EncodeChar c ++ more.data.toList := by
        have lists := congrArg (fun b : ByteArray => b.data.toList) split
        simpa using lists
      cases encoded : String.utf8EncodeChar c with
      | nil => exact absurd encoded String.utf8EncodeChar_ne_nil
      | cons b bs =>
        -- the first byte tells how many bytes the character takes, so there are no more of them
        rw [encoded, List.cons_append, List.cons.injEq] at bytes
        obtain ⟨rfl, bytes⟩ := bytes
        have size := String.length_utf8EncodeChar c
        rw [width?_head encoded, Option.some.injEq] at announced
        rw [encoded, List.length_cons] at size
        have none_left : more.data.toList = [] := by
          have total := congrArg List.length bytes
          rw [List.length_append] at total
          exact List.eq_nil_of_length_eq_zero (by omega)
        rw [bytes, none_left, List.append_nil]

theorem ofBytes_eq_char_cons {budget : Nat} {bytes : List UInt8} {c : Char} {later : List Arrival}
    (arrived : ofBytes budget false bytes = char c :: later) :
    ∃ more, bytes = String.utf8EncodeChar c ++ more ∧ c.toNat ≠ 0xFFFF ∧ c.utf8Size ≤ budget ∧
      ofBytes (budget - c.utf8Size) false more = later := by
  cases bytes with
  | nil =>
    rw [ofBytes_nil] at arrived
    cases arrived
  | cons first rest =>
    rw [ofBytes] at arrived
    split at arrived
    · cases arrived
    · rename_i room
      split at arrived
      · cases arrived
      · rename_i width announced
        dsimp only at arrived
        split at arrived
        · rename_i full
          obtain ⟨group, next⟩ := List.cons.inj arrived
          have pos := width?_pos announced
          obtain ⟨encoding, sound⟩ := ofGroup_eq_char group announced (by omega)
          have size : c.utf8Size = width := by
            rw [← String.length_utf8EncodeChar c, ← encoding, List.length_cons]
            omega
          have fits : width ≤ budget := by
            rw [List.length_take] at full
            omega
          refine ⟨rest.drop (min width budget - 1), ?_, sound, by omega, size ▸ next⟩
          rw [← encoding, List.cons_append, List.take_append_drop]
        · split at arrived
          · cases left : rest.drop (min width budget - 1) <;> simp [left] at arrived
          · cases arrived

theorem ofBytes_eq_nil {budget : Nat} {bytes : List UInt8} (arrived : ofBytes budget false bytes = []) :
    bytes = [] := by
  cases bytes with
  | nil => rfl
  | cons first rest =>
    rw [ofBytes] at arrived
    split at arrived
    · cases arrived
    · split at arrived
      · cases arrived
      · dsimp only at arrived
        split at arrived
        · cases arrived
        · split at arrived
          · rename_i some_left
            exact absurd (List.map_eq_nil_iff.mp arrived) some_left
          · cases arrived

theorem encodes_of_chars {budget : Nat} {bytes : List UInt8} {cs : List Char}
    (arrived : ofBytes budget false bytes = cs.map char) : Encodes cs bytes ∧ bytes.length ≤ budget := by
  rw [encodes_iff]
  induction cs generalizing budget bytes with
  | nil =>
    rw [ofBytes_eq_nil arrived]
    simp
  | cons c cs ih =>
    obtain ⟨more, rfl, sound, fits, later⟩ := ofBytes_eq_char_cons arrived
    obtain ⟨⟨rfl, others⟩, few⟩ := ih later
    refine ⟨⟨rfl, ?_⟩, ?_⟩
    · intro d mem
      rcases List.mem_cons.mp mem with rfl | mem
      · exact sound
      · exact others d mem
    · rw [List.length_append, String.length_utf8EncodeChar]
      omega

theorem chars_of_encodes {budget : Nat} {bytes : List UInt8} {cs : List Char} (encodes : Encodes cs bytes)
    (fits : bytes.length ≤ budget) : ofBytes budget false bytes = cs.map char := by
  obtain ⟨rfl, sound⟩ := encodes_iff.mp encodes
  rw [ofBytes_flatMap_utf8EncodeChar false fits, map_ofChar_sound sound]

theorem ofBytes_overrun {budget : Nat} {c : Char} (beyond : budget < c.utf8Size) (more : List UInt8) :
    ∃ later, ofBytes budget false (String.utf8EncodeChar c ++ more) = tooLong :: later := by
  cases encoded : String.utf8EncodeChar c with
  | nil => exact absurd encoded String.utf8EncodeChar_ne_nil
  | cons first rest =>
    have size := String.length_utf8EncodeChar c
    rw [encoded, List.length_cons] at size
    rw [List.cons_append, ofBytes]
    split
    · exact ⟨_, rfl⟩
    · rw [width?_head encoded]
      dsimp only
      rw [if_neg (by rw [List.length_take]; omega)]
      cases left : List.drop (min c.utf8Size budget - 1) (rest ++ more) with
      | nil =>
        have dropped := congrArg List.length left
        rw [List.length_drop, List.length_append, List.length_nil] at dropped
        omega
      | cons b bs => exact ⟨bs.map fun _ => tooLong, by simp⟩

theorem ofBytes_beyond {budget : Nat} {front back : List Char} {c : Char}
    (sound : ∀ d ∈ front, d.toNat ≠ 0xFFFF) (fits : byteSize front ≤ budget)
    (beyond : budget < byteSize front + c.utf8Size) :
    ∃ later, ofBytes budget false ((front ++ c :: back).flatMap String.utf8EncodeChar) =
      front.map char ++ tooLong :: later := by
  induction front generalizing budget with
  | nil => exact ofBytes_overrun (by simpa [byteSize] using beyond) _
  | cons d front ih =>
    rw [byteSize_cons] at fits beyond
    obtain ⟨later, rest⟩ := @ih (budget - d.utf8Size) (fun e mem => sound e (List.mem_cons_of_mem d mem))
      (by omega) (by omega)
    refine ⟨later, ?_⟩
    rw [List.cons_append, List.flatMap_cons, ofBytes_utf8EncodeChar_append false (by omega), rest, ofChar,
      if_neg (sound d List.mem_cons_self)]
    rfl

end Arrival

namespace Source

theorem chars_or_bar (arrivals : List Arrival) :
    (∃ cs : List Char, arrivals = cs.map .char) ∨ ∃ arrival ∈ arrivals, ∀ c, arrival ≠ .char c := by
  induction arrivals with
  | nil => exact Or.inl ⟨[], rfl⟩
  | cons arrival rest ih =>
    by_cases bar : ∀ c, arrival ≠ .char c
    · exact Or.inr ⟨arrival, List.mem_cons_self, bar⟩
    · obtain ⟨c, rfl⟩ : ∃ c, arrival = .char c := by simpa using bar
      rcases ih with ⟨cs, rfl⟩ | ⟨other, mem, noChar⟩
      · exact Or.inl ⟨c :: cs, rfl⟩
      · exact Or.inr ⟨other, List.mem_cons_of_mem _ mem, noChar⟩

theorem opening_barred {limit : Nat} {arrivals : List Arrival} {s : Source}
    (bar : ∃ arrival ∈ arrivals, ∀ c, arrival ≠ .char c) (opened : opening limit arrivals = .ok s) :
    BarredAhead s := by
  obtain ⟨barrier, mem, noChar⟩ := bar
  match arrivals with
  | [] => cases mem
  | .char c :: [] =>
    cases List.mem_singleton.mp mem
    exact absurd rfl (noChar c)
  | .char c :: .char d :: rest =>
    cases opened
    rcases List.mem_cons.mp mem with rfl | mem
    · exact absurd rfl (noChar c)
    · rcases List.mem_cons.mp mem with rfl | mem
      · exact absurd rfl (noChar d)
      · exact ⟨⟨barrier, mem, noChar⟩, rfl, rfl⟩
  | .tooLong :: _ | .invalid :: _ | .reserved :: _ => cases opened
  | .char _ :: .tooLong :: _ | .char _ :: .invalid :: _ | .char _ :: .reserved :: _ => cases opened

theorem exhausted {limit : Nat} {bytes : List UInt8} {s t : Source} (opened : ofBytes limit bytes none = .ok s)
    (moved : s.Reaches t) (ended : t.current = none) :
    ∃ cs, Encodes cs bytes ∧ bytes.length ≤ max limit minLimit ∧
      t = before (max limit minLimit) (cs.length + 1) [] := by
  rw [ofBytes_eq] at opened
  rcases chars_or_bar (Arrival.ofBytes (max limit minLimit) false bytes) with ⟨cs, chars⟩ | bar
  · obtain ⟨encodes, fits⟩ := Arrival.encodes_of_chars chars
    rw [chars, opening_chars] at opened
    cases opened
    obtain ⟨k, inside, rfl⟩ := reaches_before moved
    have all : cs.length ≤ k := by simpa using ended
    have last : k = cs.length := Nat.le_antisymm inside all
    refine ⟨cs, encodes, fits, ?_⟩
    rw [last, List.drop_length, Nat.add_comm]
  · have current := (barredAhead_reaches (opening_barred bar opened) moved).2.1
    rw [ended] at current
    cases current

theorem text_of_encodes {text : String} {cs : List Char} (encodes : Encodes cs text.toByteArray.toList) :
    cs = text.toList ∧ text.toByteArray.toList.length = text.utf8ByteSize := by
  have bytes : text.toByteArray.toList.toByteArray = text.toByteArray := by
    rw [bytes_of_text, ← List.utf8Encode, String.utf8Encode_toList]
  constructor
  · have same := encodes.1
    rw [bytes, ← String.toByteArray_ofList, String.toByteArray_inj] at same
    rw [same, String.toList_ofList]
  · rw [← List.size_toByteArray, bytes, String.size_toByteArray]

/-- The source that stands before these characters with other arrivals behind them. -/
def barred (limit position : Nat) (cs : List Char) (later : List Arrival) : Source :=
  { before limit position cs with upcoming := (cs.drop 2).map .char ++ later }

theorem opening_later {cs : List Char} (two : 2 ≤ cs.length) (limit : Nat) (later : List Arrival) :
    opening limit (cs.map .char ++ later) = .ok (barred limit 1 cs later) := by
  match cs with
  | [] | [_] => simp at two
  | _ :: _ :: _ => rfl

theorem opening_tooLong {cs : List Char} (few : cs.length < 2) (limit : Nat) (later : List Arrival) :
    opening limit (cs.map .char ++ .tooLong :: later) = .error (.tooLong limit) := by
  match cs with
  | [] | [_] => rfl
  | _ :: _ :: _ =>
    simp only [List.length_cons] at few
    omega

theorem read_barred {cs : List Char} (two : 2 ≤ cs.length) (limit position : Nat) (c : Char)
    (later : List Arrival) :
    read (barred limit position (c :: cs) later) = .ok (some c) (barred limit (position + 1) cs later) := by
  match cs with
  | [] | [_] => simp at two
  | _ :: _ :: _ => rfl

theorem read_tooLong (limit position : Nat) (c d : Char) (later : List Arrival) :
    ∃ t, read (barred limit position [c, d] (.tooLong :: later)) = .error (.tooLong limit) t := ⟨_, rfl⟩

def readAll : Scan (List Char) := Scan.takeWhile fun _ => true

/-- So many reads in a row. At the end a read yields none. -/
def readTimes : Nat → Scan (List (Option Char))
  | 0 => return []
  | k + 1 => do
    let c ← read
    return c :: (← readTimes k)

theorem readTimes_succ {s t u : Source} {k : Nat} {c : Option Char} {cs : List (Option Char)}
    (first : read s = .ok c t) (rest : readTimes k t = .ok cs u) : readTimes (k + 1) s = .ok (c :: cs) u := by
  rw [readTimes, run_bind first, run_bind rest]
  rfl

theorem readTimes_before (k limit position : Nat) (cs : List Char) :
    readTimes k (before limit position cs) =
      .ok ((List.range k).map (cs[·]?)) (before limit (position + min k cs.length) (cs.drop k)) := by
  induction k generalizing position cs with
  | zero => simp [readTimes, Scan.run_pure]
  | succ k ih =>
    rw [List.range_succ_eq_map, List.map_cons, List.map_map]
    cases cs with
    | nil =>
      have rest : readTimes k (before limit position []) =
          .ok ((List.range k).map ((fun x => ([] : List Char)[x]?) ∘ Nat.succ)) (before limit position []) := by
        simpa [Function.comp_def] using ih position []
      exact readTimes_succ rfl rest
    | cons c cs =>
      have rest := ih (position + 1) cs
      have step : position + 1 + min k cs.length = position + min (k + 1) (cs.length + 1) := by omega
      rw [step] at rest
      exact readTimes_succ (read_before_cons limit position c cs) rest

theorem readTimes_barred {cs : List Char} (two : 2 ≤ cs.length) (limit position : Nat) (front : List Char)
    (later : List Arrival) :
    readTimes front.length (barred limit position (front ++ cs) later) =
      .ok (front.map some) (barred limit (position + front.length) cs later) := by
  induction front generalizing position with
  | nil => rfl
  | cons c front ih =>
    have room : 2 ≤ (front ++ cs).length := by
      rw [List.length_append]
      omega
    have rest := ih (position + 1)
    rw [Nat.add_assoc, Nat.add_comm 1] at rest
    exact readTimes_succ (read_barred room limit position c later) rest

/-- Where a source stands after `k` reads of these characters. -/
structure StandsAfter (cs : List Char) (k : Nat) (s : Source) : Prop where
  current : s.current = cs[k]?
  next : s.next = cs[k + 1]?
  position : s.position = min k cs.length + 1
  rests : cs.length ≤ k → read s = .ok none s

theorem standsAfter_before (limit k : Nat) (cs : List Char) :
    StandsAfter cs k (before limit (1 + min k cs.length) (cs.drop k)) := by
  constructor
  · simp
  · simp
  · exact Nat.add_comm _ _
  · intro past
    rw [List.drop_eq_nil_of_le past]
    rfl

theorem readAll_before (limit position : Nat) (cs : List Char) :
    readAll (before limit position cs) = .ok cs (before limit (position + cs.length) []) := by
  have all := Scan.takeWhile_before limit position (fun _ => true) cs
  obtain ⟨taken, left⟩ := @span_append (fun _ => true) cs [] (fun _ _ => rfl) rfl
  rw [List.append_nil] at taken left
  rwa [taken, left] at all

theorem current_of_readAll {s t : Source} {cs : List Char} (done : readAll s = .ok cs t) :
    t.current = none := by
  have ended := Scan.repeatWhile_ends done
  simpa using ended

variable {limit : Nat} {bytes : List UInt8} {cs : List Char}

theorem ofBytes_before (encodes : Encodes cs bytes) (fits : bytes.length ≤ max limit minLimit) :
    ofBytes limit bytes none = .ok (before (max limit minLimit) 1 cs) := by
  rw [ofBytes_eq, Arrival.chars_of_encodes encodes fits, opening_chars]

theorem readAll_ok_iff :
    (∃ s cs t, ofBytes limit bytes none = .ok s ∧ readAll s = .ok cs t) ↔
      (∃ cs, Encodes cs bytes) ∧ bytes.length ≤ max limit minLimit := by
  constructor
  · rintro ⟨s, _, t, opened, done⟩
    have moved := (Scan.onlyReads_takeWhile _).moves s _ t done
    obtain ⟨cs, encodes, fits, _⟩ := exhausted opened moved (current_of_readAll done)
    exact ⟨⟨cs, encodes⟩, fits⟩
  · rintro ⟨⟨cs, encodes⟩, fits⟩
    exact ⟨_, cs, _, ofBytes_before encodes fits, readAll_before _ 1 cs⟩

theorem last_two {front : List Char} (two : 2 ≤ front.length) : ∃ first c d, front = first ++ [c, d] := by
  have size : (front.drop (front.length - 2)).length = 2 := by
    rw [List.length_drop]
    omega
  have last := List.eq_getElem_of_length_eq_two _ size
  have whole := List.take_append_drop (front.length - 2) front
  rw [last] at whole
  exact ⟨_, _, _, whole.symm⟩

theorem arrivals_beyond (encodes : Encodes cs bytes) (long : limit < bytes.length) :
    ∃ front later, FirstBeyond limit cs (front.length + 1) ∧ front <+: cs ∧
      Arrival.ofBytes limit false bytes = front.map .char ++ .tooLong :: later := by
  rw [length_of_encodes encodes] at long
  obtain ⟨rfl, sound⟩ := encodes_iff.mp encodes
  obtain ⟨front, c, back, rfl, fits, beyond⟩ := split_beyond long
  have before : ∀ d ∈ front, d.toNat ≠ 0xFFFF := fun d mem => sound d (List.mem_append_left _ mem)
  obtain ⟨later, arrived⟩ := Arrival.ofBytes_beyond before fits beyond
  exact ⟨front, later, firstBeyond_of_split fits beyond, List.prefix_append _ _, arrived⟩

/-- Reading is decoding under a limit. Opening and reading to the end succeeds exactly if the bytes encode
characters other than U+FFFF and are no more than the limit allows. Then each read yields the next character and at
the end none. Of a text that is longer, opening fails if the first or the second character does not fit, and
otherwise the read fails that would bring the first one that does not fit into view. -/
theorem ofBytes_decodes (limit : Nat) (bytes : List UInt8) :
    ((∃ s cs t, ofBytes limit bytes none = .ok s ∧ readAll s = .ok cs t) ↔
      (∃ cs, Encodes cs bytes) ∧ bytes.length ≤ max limit minLimit) ∧
    ∀ cs, Encodes cs bytes →
      (bytes.length ≤ max limit minLimit → ∃ s, ofBytes limit bytes none = .ok s ∧
        (∃ t, readAll s = .ok cs t) ∧
        ∀ k, ∃ t, readTimes k s = .ok ((List.range k).map (cs[·]?)) t ∧ StandsAfter cs k t) ∧
      (max limit minLimit < bytes.length → ∃ j, FirstBeyond (max limit minLimit) cs j ∧
        (j ≤ 2 → ofBytes limit bytes none = .error (.tooLong (max limit minLimit))) ∧
        (2 < j → ∃ s t u, ofBytes limit bytes none = .ok s ∧
          readTimes (j - 3) s = .ok ((cs.take (j - 3)).map some) t ∧
          read t = .error (.tooLong (max limit minLimit)) u)) := by
  refine ⟨readAll_ok_iff, fun cs encodes => ⟨fun fits => ?_, fun long => ?_⟩⟩
  · refine ⟨_, ofBytes_before encodes fits, ⟨_, readAll_before _ 1 cs⟩, fun k => ?_⟩
    exact ⟨_, readTimes_before k _ 1 cs, standsAfter_before _ k cs⟩
  · obtain ⟨front, later, beyond, part, arrived⟩ := arrivals_beyond encodes long
    refine ⟨front.length + 1, beyond, fun early => ?_, fun late => ?_⟩
    · rw [ofBytes_eq, arrived, opening_tooLong (by omega)]
    · obtain ⟨first, c, d, rfl⟩ := last_two (by omega : 2 ≤ front.length)
      obtain ⟨rest, rfl⟩ := part
      have opened : ofBytes limit bytes none =
          .ok (barred (max limit minLimit) 1 (first ++ [c, d]) (.tooLong :: later)) := by
        rw [ofBytes_eq, arrived, opening_later (by simp)]
      have read := @readTimes_barred [c, d] (Nat.le_refl 2) (max limit minLimit) 1 first (.tooLong :: later)
      obtain ⟨u, refused⟩ := read_tooLong (max limit minLimit) (1 + first.length) c d later
      have count : (first ++ [c, d]).length + 1 - 3 = first.length := by simp
      have taken : (first ++ [c, d] ++ rest).take first.length = first := by simp
      rw [count, taken]
      exact ⟨_, _, u, opened, read, refused⟩

/-- Characters of one, two and three bytes. Within 4 bytes the third one is begun but does not fit, and the first
read would bring it into view. -/
theorem ofBytes_decodes_straddling :
    Encodes ['a', 'é', '€'] [0x61, 0xC3, 0xA9, 0xE2, 0x82, 0xAC] ∧
      (∃ s, ofBytes 6 [0x61, 0xC3, 0xA9, 0xE2, 0x82, 0xAC] none = .ok s ∧
        ∃ t, readAll s = .ok ['a', 'é', '€'] t) ∧
      ∃ s u, ofBytes 4 [0x61, 0xC3, 0xA9, 0xE2, 0x82, 0xAC] none = .ok s ∧
        read s = .error (.tooLong 4) u := by
  have encodes : Encodes ['a', 'é', '€'] [0x61, 0xC3, 0xA9, 0xE2, 0x82, 0xAC] :=
    encodes_iff.mpr ⟨by decide, by simp⟩
  refine ⟨encodes, ?_, ?_⟩
  · obtain ⟨s, opened, all, _⟩ := ((ofBytes_decodes 6 _).2 _ encodes).1 (by decide)
    exact ⟨s, opened, all⟩
  · obtain ⟨j, ⟨fits, beyond⟩, _, refused⟩ := ((ofBytes_decodes 4 _).2 _ encodes).2 (by decide)
    have late : 2 < j := by
      refine Nat.lt_of_not_le fun early => ?_
      have few : j = 0 ∨ j = 1 ∨ j = 2 := by omega
      rcases few with rfl | rfl | rfl <;> exact absurd beyond (by decide)
    have third : j = 3 := by
      refine Nat.le_antisymm (Nat.le_of_not_lt fun later => ?_) late
      have all : ['a', 'é', '€'].take (j - 1) = ['a', 'é', '€'] :=
        List.take_of_length_le (by simp only [List.length_cons, List.length_nil]; omega)
      rw [all] at fits
      exact absurd fits (by decide)
    subst third
    obtain ⟨s, t, u, opened, read, failed⟩ := refused late
    cases read
    exact ⟨s, u, opened, failed⟩

end Source

end TemplateExpr
