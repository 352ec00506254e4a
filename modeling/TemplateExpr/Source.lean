import TemplateExpr.Error
import TemplateExpr.Sequencing
/-!
The characters of a source, read one at a time with one character of lookahead. The bytes are UTF-8 and
their number is limited. What each further character brings, a failure included, is decided by the bytes
alone, so a source is a cursor on a list of arrivals.

A scan is a computation that reads a source. It keeps the source when it fails, since reading may go on
after a failure. `repeatUntil` is the one loop over a source; it ends because each round has to consume.
-/
namespace TemplateExpr

inductive Arrival where
  | char (c : Char)
  | tooLong
  | invalid
  /-- U+FFFF, which no source may contain. -/
  | reserved
  deriving DecidableEq

namespace Arrival

def width? (first : UInt8) : Option Nat :=
  if first < 0x80 then some 1
  else if first < 0xC0 then none
  else if first < 0xE0 then some 2
  else if first < 0xF0 then some 3
  else if first < 0xF8 then some 4
  else none

def ofGroup (group : List UInt8) : Arrival :=
  match group.toByteArray.utf8DecodeChar? 0 with
  | none => invalid
  | some c => if c.toNat = 0xFFFF then reserved else char c

/-- The arrivals of a stream of which `budget` bytes may be used. The first byte beyond them is taken
from the stream and refused, and so is every later one. A group cut short by the end of the stream
is invalid; one cut short by a failure of the stream is lost to that failure. -/
def ofBytes (budget : Nat) (failing : Bool) : List UInt8 → List Arrival
  | [] => []
  | first :: rest =>
    if budget = 0 then (first :: rest).map fun _ => tooLong
    else
      match width? first with
      | none => invalid :: ofBytes (budget - 1) failing rest
      | some width =>
        let taken := rest.take (min width budget - 1)
        let more := rest.drop (min width budget - 1)
        if taken.length = width - 1 then
          ofGroup (first :: taken) :: ofBytes (budget - width) failing more
        else if more ≠ [] then more.map fun _ => tooLong
        else if failing then []
        else [invalid]
termination_by bytes => bytes.length
decreasing_by
  · simp only [List.length_cons]
    omega
  · simp only [List.length_cons, List.length_drop]
    omega

end Arrival

structure Source where
  /-- The character under the cursor; none at the end. -/
  current : Option Char
  next : Option Char
  /-- The place of the current character, counted from 1. -/
  position : Nat
  upcoming : List Arrival
  /-- Why the stream fails once its arrivals are used up, if it does not simply end. -/
  failure : Option ReadFault
  limit : Nat

abbrev Scan (α : Type) : Type := EStateM Error Source α

namespace Source

/-- Room for the current and the next character. -/
def minLimit : Nat := 2

def fetch : Scan (Option Char) := fun s =>
  match s.upcoming with
  | [] =>
    match s.failure with
    | none => .ok none s
    | some fault => .error (.unreadable fault) s
  | arrival :: rest =>
    let s := { s with upcoming := rest }
    match arrival with
    | .char c => .ok (some c) s
    | .tooLong => .error (.tooLong s.limit) s
    | .invalid => .error (.unreadable .invalidEncoding) s
    | .reserved =>
      .error (.malformed (s.position + if s.current.isNone then 0 else 1) .reservedChar) s

/-- Moves on by one character and returns the one left behind. At the end nothing moves. After a
failure the cursor has moved but the lookahead and the position have not. -/
def read : Scan (Option Char) := fun s =>
  match s.current with
  | none => .ok none s
  | some c =>
    match fetch { s with current := s.next } with
    | .ok next t => .ok (some c) { t with next := next, position := t.position + 1 }
    | .error e t => .error e t

/-- A source at its first character. The limit counts bytes and is at least `minLimit`. -/
def ofBytes (limit : Nat) (bytes : List UInt8) (failure : Option ReadFault) :
    Except Error Source :=
  let limit := max limit minLimit
  let start : Source :=
    { current := none, next := none, position := 1,
      upcoming := Arrival.ofBytes limit failure.isSome bytes, failure, limit }
  match fetch start with
  | .error e _ => .error e
  | .ok first s =>
    match fetch { s with current := first } with
    | .error e _ => .error e
    | .ok second s => .ok { s with next := second }

def ofText (limit : Nat) (text : String) : Except Error Source :=
  ofBytes limit text.toByteArray.toList none

def atEnd (s : Source) : Bool := s.current.isNone

/-- Characters and failures yet to come, the current character included. -/
def remaining (s : Source) : Nat :=
  s.upcoming.length + s.current.toList.length + s.next.toList.length

theorem remaining_fetch {s t : Source} {c : Option Char} (h : fetch s = .ok c t) :
    t.current = s.current ∧ t.next = s.next ∧
      t.upcoming.length + c.toList.length ≤ s.upcoming.length := by
  unfold fetch at h
  split at h
  · split at h
    · cases h; simp
    · cases h
  · rename_i arrival rest eq
    cases arrival with
    | char c => cases h; simp [eq]
    | tooLong => cases h
    | invalid => cases h
    | reserved => cases h

theorem remaining_read {s t : Source} {c : Option Char} (h : read s = .ok c t) :
    c = s.current ∧ t.remaining + c.toList.length ≤ s.remaining := by
  unfold read at h
  split at h
  · rename_i eq
    cases h
    simp [eq]
  · rename_i c eq
    split at h
    · rename_i next u fetched
      cases h
      obtain ⟨current, _, shorter⟩ := remaining_fetch fetched
      refine ⟨eq.symm, ?_⟩
      simp only [remaining, current, eq, Option.toList_some, List.length_cons, List.length_nil]
      simp only at shorter
      omega
    · cases h

end Source

namespace Scan

def Shrinks (scan : Scan α) : Prop :=
  ∀ s a t, scan s = .ok a t → t.remaining ≤ s.remaining

def Consumes (start : Source → Bool) (scan : Scan α) : Prop :=
  ∀ s a t, start s = true → scan s = .ok a t → t.remaining < s.remaining

theorem shrinks_pure (a : α) : Shrinks (pure a : Scan α) := by
  intro s b t h
  cases h
  exact Nat.le_refl _

theorem shrinks_throw (e : Error) : Shrinks (throw e : Scan α) := by
  intro s b t h
  cases h

theorem shrinks_bind {scan : Scan α} {f : α → Scan β} (hs : Shrinks scan)
    (hf : ∀ a, Shrinks (f a)) : Shrinks (scan >>= f) := by
  intro s b t h
  obtain ⟨a, u, first, second⟩ := bind_ok h
  exact Nat.le_trans (hf a u b t second) (hs s a u first)

theorem shrinks_get : Shrinks (get : Scan Source) := by
  intro s a t h
  cases h
  exact Nat.le_refl _

theorem shrinks_read : Shrinks Source.read := by
  intro s c t h
  have := (Source.remaining_read h).2
  omega

theorem consumes_bind {start : Source → Bool} {scan : Scan α} {f : α → Scan β}
    (hs : Consumes start scan) (hf : ∀ a, Shrinks (f a)) : Consumes start (scan >>= f) := by
  intro s b t hstart h
  obtain ⟨a, u, first, second⟩ := bind_ok h
  exact Nat.lt_of_le_of_lt (hf a u b t second) (hs s a u hstart first)

theorem consumes_read : Consumes (fun s => s.current.isSome) Source.read := by
  intro s c t hstart h
  obtain ⟨rfl, shorter⟩ := Source.remaining_read h
  obtain ⟨c, hc⟩ := Option.isSome_iff_exists.1 hstart
  simp only [hc, Option.toList_some, List.length_cons, List.length_nil] at shorter
  omega

/-- Runs `step` as long as the source has the property `more`, and joins what the rounds return. -/
def repeatWhile (more : Source → Bool) (step : Scan (List α)) (progress : Consumes more step)
    (s : Source) : EStateM.Result Error Source (List α) :=
  match _ : more s with
  | false => .ok [] s
  | true =>
    match _ : step s with
    | .error e t => .error e t
    | .ok piece t =>
      match repeatWhile more step progress t with
      | .error e u => .error e u
      | .ok pieces u => .ok (piece ++ pieces) u
termination_by s.remaining
decreasing_by exact progress s piece t (by assumption) (by assumption)

theorem shrinks_repeatWhile {more : Source → Bool} {step : Scan (List α)}
    {progress : Consumes more step} : Shrinks (repeatWhile more step progress) := by
  intro s a t h
  fun_induction repeatWhile more step progress s generalizing a t with
  | case1 => cases h; exact Nat.le_refl _
  | case2 => cases h
  | case3 => cases h
  | case4 s hm piece u hs pieces v hr ih =>
    cases h
    exact Nat.le_trans (ih _ _ hr) (Nat.le_of_lt (progress s piece u hm hs))

def takeWhile (p : Char → Bool) : Scan (List Char) :=
  repeatWhile (fun s => s.current.any p) (return (← Source.read).toList) <|
    consumes_bind
      (fun s c t hs h => consumes_read s c t (by cases hc : s.current <;> simp_all) h)
      (fun _ => shrinks_pure _)

def takeIf (p : Char → Bool) : Scan (List Char) := do
  let s ← get
  if s.current.any p then return (← Source.read).toList else return []

end Scan

end TemplateExpr
