import TemplateExpr.Source
/-!
A source as a cursor on characters. `before` is a source with nothing but sound characters to come, and on
such a source every scan is a function of the characters. `Reaches` covers all other sources too: it says
where a scan can be once it has succeeded, whatever it read on the way.
-/
namespace TemplateExpr

theorem span_append {p : Char → Bool} {front back : List Char} (holds : ∀ c ∈ front, p c = true)
    (fails : back.head?.any p = false) :
    (front ++ back).takeWhile p = front ∧ (front ++ back).dropWhile p = back := by
  rw [List.takeWhile_append_of_pos holds, List.dropWhile_append_of_pos holds]
  cases back with
  | nil => exact ⟨List.append_nil front, rfl⟩
  | cons c back =>
    have stop : ¬ p c = true := by simpa using fails
    rw [List.takeWhile_cons_of_neg stop, List.dropWhile_cons_of_neg stop, List.append_nil]
    exact ⟨rfl, rfl⟩

def Error.OfSource : Error → Prop
  | .tooLong _ | .unreadable _ => True
  | _ => False

def Error.IsRefusal : Error → Prop
  | .malformed _ _ | .badNumeral _ _ => True
  | _ => False

theorem Error.OfSource.not_isRefusal {e : Error} (ofSource : e.OfSource) : ¬ e.IsRefusal := by
  cases e with
  | tooLong | unreadable => exact id
  | _ => cases ofSource

namespace Source

/-- The source that stands before these characters, with nothing else to come. -/
def before (limit position : Nat) (cs : List Char) : Source where
  current := cs.head?
  next := cs.tail.head?
  position
  upcoming := (cs.drop 2).map .char
  failure := none
  limit

@[simp] theorem current_before (limit position : Nat) (cs : List Char) :
    (before limit position cs).current = cs.head? := rfl

@[simp] theorem next_before (limit position : Nat) (cs : List Char) :
    (before limit position cs).next = cs.tail.head? := rfl

@[simp] theorem position_before (limit position : Nat) (cs : List Char) :
    (before limit position cs).position = position := rfl

theorem atEnd_before (limit position : Nat) (cs : List Char) :
    (before limit position cs).atEnd = cs.isEmpty := by
  cases cs <;> rfl

theorem remaining_before (limit position : Nat) (cs : List Char) :
    (before limit position cs).remaining = cs.length := by
  cases cs with
  | nil => rfl
  | cons c cs =>
    cases cs with
    | nil => rfl
    | cons d cs => simp [remaining, before]

theorem read_before_cons (limit position : Nat) (c : Char) (cs : List Char) :
    read (before limit position (c :: cs)) = .ok (some c) (before limit (position + 1) cs) := by
  cases cs with
  | nil => rfl
  | cons d cs => cases cs <;> rfl

inductive Reaches : Source → Source → Prop where
  | refl (s : Source) : Reaches s s
  | step {s t u : Source} {c : Option Char} (first : read s = .ok c t) (rest : Reaches t u) :
      Reaches s u

theorem Reaches.trans {s t u : Source} (first : Reaches s t) (second : Reaches t u) :
    Reaches s u := by
  induction first with
  | refl => exact second
  | step h _ ih => exact .step h (ih second)

theorem reaches_read {s t : Source} {c : Option Char} (h : read s = .ok c t) : Reaches s t :=
  .step h (.refl t)

/-- U+FFFF is still to come, behind the two characters that are there already. -/
def ReservedAhead (s : Source) : Prop :=
  Arrival.reserved ∈ s.upcoming ∧ s.current.isSome = true ∧ s.next.isSome = true

/-- Something that is no character is still to come, behind the two characters that are there already. -/
def BarredAhead (s : Source) : Prop :=
  (∃ arrival ∈ s.upcoming, ∀ c, arrival ≠ .char c) ∧ s.current.isSome = true ∧ s.next.isSome = true

theorem barredAhead_of_reserved {s : Source} (ahead : ReservedAhead s) : BarredAhead s := by
  obtain ⟨pending, there⟩ := ahead
  exact ⟨⟨_, pending, fun c same => by cases same⟩, there⟩

theorem barredAhead_read {s t : Source} {c : Option Char} (ahead : BarredAhead s)
    (h : read s = .ok c t) : BarredAhead t := by
  obtain ⟨⟨bar, pending, noChar⟩, _, following⟩ := ahead
  unfold read at h
  split at h
  · cases h
    simp_all
  · split at h
    · rename_i next u fetched
      cases h
      unfold fetch at fetched
      split at fetched
      · rename_i none_left
        simp only at none_left
        simp [none_left] at pending
      · rename_i arrival rest eq
        simp only at eq
        cases arrival with
        | char d =>
          cases fetched
          rw [eq] at pending
          rcases List.mem_cons.mp pending with rfl | later
          · exact absurd rfl (noChar d)
          · exact ⟨⟨bar, later, noChar⟩, following, rfl⟩
        | tooLong => cases fetched
        | invalid => cases fetched
        | reserved => cases fetched
    · cases h

theorem barredAhead_reaches {s t : Source} (ahead : BarredAhead s) (h : Reaches s t) :
    BarredAhead t := by
  induction h with
  | refl => exact ahead
  | step first _ ih => exact ih (barredAhead_read ahead first)

theorem reaches_before {limit position : Nat} {cs : List Char} {t : Source}
    (h : Reaches (before limit position cs) t) :
    ∃ k, k ≤ cs.length ∧ t = before limit (position + k) (cs.drop k) := by
  generalize start : before limit position cs = s at h
  induction h generalizing position cs with
  | refl => exact ⟨0, Nat.zero_le _, start.symm⟩
  | step first _ ih =>
    subst start
    cases cs with
    | nil =>
      cases first
      exact ih rfl
    | cons c cs =>
      rw [read_before_cons] at first
      cases first
      obtain ⟨k, inside, rfl⟩ := ih rfl
      refine ⟨k + 1, Nat.succ_le_succ inside, ?_⟩
      rw [List.drop_succ_cons, Nat.add_assoc, Nat.add_comm 1]

theorem read_before_ne_error {limit position : Nat} {cs : List Char} {e : Error} {t : Source} :
    read (before limit position cs) ≠ .error e t := by
  intro h
  cases cs with
  | nil => cases h
  | cons c cs =>
    rw [read_before_cons] at h
    cases h

end Source

namespace Scan

theorem run_get_bind (f : Source → Scan β) (s : Source) : (get >>= f) s = f s s := rfl

theorem run_pure (a : α) (s : Source) : (pure a : Scan α) s = .ok a s := rfl

def Moves (scan : Scan α) : Prop := ∀ s a t, scan s = .ok a t → s.Reaches t

/-- A scan that does nothing to a source but read it: it moves by reading alone, and where it does not refuse what
it has read it fails because reading does. -/
structure OnlyReads (scan : Scan α) : Prop where
  moves : Moves scan
  fault : ∀ s e t, scan s = .error e t → ¬ e.IsRefusal → ∃ u, s.Reaches u ∧ Source.read u = .error e t

theorem onlyReads_pure (a : α) : OnlyReads (pure a : Scan α) := by
  constructor
  · intro s b t h
    cases h
    exact .refl s
  · intro s e t h
    cases h

theorem onlyReads_get : OnlyReads (get : Scan Source) := by
  constructor
  · intro s a t h
    cases h
    exact .refl s
  · intro s e t h
    cases h

theorem onlyReads_refuse {e : Source → Error} (refusal : ∀ s, (e s).IsRefusal) :
    OnlyReads (fun s => .error (e s) s : Scan α) := by
  constructor
  · intro s a t h
    cases h
  · intro s e t h other
    cases h
    exact absurd (refusal s) other

theorem onlyReads_read : OnlyReads Source.read := by
  constructor
  · exact fun _ _ _ h => Source.reaches_read h
  · exact fun s _ _ h _ => ⟨s, .refl s, h⟩

theorem onlyReads_bind {scan : Scan α} {f : α → Scan β} (hs : OnlyReads scan) (hf : ∀ a, OnlyReads (f a)) :
    OnlyReads (scan >>= f) := by
  constructor
  · intro s b t h
    obtain ⟨a, u, first, second⟩ := bind_ok h
    exact (hs.moves s a u first).trans ((hf a).moves u b t second)
  · intro s e t h other
    rcases bind_error h with first | ⟨a, u, first, second⟩
    · exact hs.fault s e t first other
    · obtain ⟨v, later, failed⟩ := (hf a).fault u e t second other
      exact ⟨v, (hs.moves s a u first).trans later, failed⟩

theorem onlyReads_ite {p : Source → Prop} [DecidablePred p] {yes no : Scan α} (hyes : OnlyReads yes)
    (hno : OnlyReads no) : OnlyReads (fun s => if p s then yes s else no s) := by
  constructor
  · intro s a t h
    dsimp only at h
    split at h
    · exact hyes.moves s a t h
    · exact hno.moves s a t h
  · intro s e t h
    split at h
    · exact hyes.fault s e t h
    · exact hno.fault s e t h

theorem onlyReads_repeatWhile {more : Source → Bool} {step : Scan (List α)}
    {progress : Consumes more step} (hs : OnlyReads step) :
    OnlyReads (repeatWhile more step progress) := by
  constructor
  · intro s a t h
    fun_induction repeatWhile more step progress s generalizing a t with
    | case1 s => cases h; exact .refl s
    | case2 => cases h
    | case3 => cases h
    | case4 s _ piece u first pieces v hr ih =>
      cases h
      exact (hs.moves s piece u first).trans (ih _ _ hr)
  · intro s e t h other
    fun_induction repeatWhile more step progress s generalizing t with
    | case1 => cases h
    | case2 s _ _ _ failed =>
      cases h
      exact hs.fault s _ _ failed other
    | case3 s _ piece u first _ _ failed ih =>
      cases h
      obtain ⟨w, later, failed⟩ := ih _ failed
      exact ⟨w, (hs.moves s piece u first).trans later, failed⟩
    | case4 => cases h

theorem onlyReads_takeWhile (p : Char → Bool) : OnlyReads (takeWhile p) :=
  onlyReads_repeatWhile (onlyReads_bind onlyReads_read fun _ => onlyReads_pure _)

theorem onlyReads_takeIf (p : Char → Bool) : OnlyReads (takeIf p) := by
  refine onlyReads_bind onlyReads_get fun s => ?_
  split
  · exact onlyReads_bind onlyReads_read fun _ => onlyReads_pure _
  · exact onlyReads_pure _

theorem repeatWhile_stop {more : Source → Bool} {step : Scan (List α)}
    {progress : Consumes more step} {s : Source} (h : more s = false) :
    repeatWhile more step progress s = .ok [] s := by
  rw [repeatWhile]
  split
  · rfl
  · simp_all

theorem repeatWhile_ends {more : Source → Bool} {step : Scan (List α)}
    {progress : Consumes more step} {s t : Source} {pieces : List α}
    (h : repeatWhile more step progress s = .ok pieces t) : more t = false := by
  fun_induction repeatWhile more step progress s generalizing pieces t with
  | case1 s done => cases h; exact done
  | case2 => cases h
  | case3 => cases h
  | case4 s _ piece u first rest v hr ih =>
    cases h
    exact ih hr

theorem repeatWhile_step {more : Source → Bool} {step : Scan (List α)}
    {progress : Consumes more step} {s t u : Source} {piece pieces : List α}
    (h : more s = true) (first : step s = .ok piece t)
    (rest : repeatWhile more step progress t = .ok pieces u) :
    repeatWhile more step progress s = .ok (piece ++ pieces) u := by
  rw [repeatWhile]
  split
  · simp_all
  · split
    · rename_i failed
      rw [first] at failed
      cases failed
    · rename_i done
      rw [first] at done
      cases done
      rw [rest]

theorem repeatWhile_error {more : Source → Bool} {step : Scan (List α)}
    {progress : Consumes more step} {s u : Source} {e : Error} (h : more s = true) (first : step s = .error e u) :
    repeatWhile more step progress s = .error e u := by
  rw [repeatWhile]
  split
  · simp_all
  · split
    · rename_i failed
      rw [first] at failed
      cases failed
      rfl
    · rename_i done
      rw [first] at done
      cases done

theorem repeatWhile_later_error {more : Source → Bool} {step : Scan (List α)}
    {progress : Consumes more step} {s t u : Source} {piece : List α} {e : Error}
    (h : more s = true) (first : step s = .ok piece t)
    (rest : repeatWhile more step progress t = .error e u) :
    repeatWhile more step progress s = .error e u := by
  rw [repeatWhile]
  split
  · simp_all
  · split
    · rename_i failed
      rw [first] at failed
      cases failed
    · rename_i done
      rw [first] at done
      cases done
      rw [rest]

theorem repeatWhile_ok {more : Source → Bool} {step : Scan (List α)}
    {progress : Consumes more step} {s u : Source} {pieces : List α}
    (h : repeatWhile more step progress s = .ok pieces u) :
    (more s = false ∧ pieces = [] ∧ u = s) ∨
      ∃ piece t rest, more s = true ∧ step s = .ok piece t ∧
        repeatWhile more step progress t = .ok rest u ∧ pieces = piece ++ rest := by
  rw [repeatWhile] at h
  split at h
  · rename_i done
    cases h
    exact Or.inl ⟨done, rfl, rfl⟩
  · rename_i going
    split at h
    · cases h
    · rename_i piece t first
      split at h
      · cases h
      · rename_i rest v last
        cases h
        exact Or.inr ⟨piece, t, rest, going, first, last, rfl⟩

variable (limit position : Nat)

open Source

theorem takeWhile_before (p : Char → Bool) (cs : List Char) :
    takeWhile p (before limit position cs) =
      .ok (cs.takeWhile p) (before limit (position + (cs.takeWhile p).length) (cs.dropWhile p)) := by
  induction cs generalizing position with
  | nil => exact repeatWhile_stop rfl
  | cons c cs ih =>
    by_cases holds : p c = true
    · have first : (return (← read).toList : Scan (List Char)) (before limit position (c :: cs)) =
          .ok [c] (before limit (position + 1) cs) :=
        run_bind (read_before_cons limit position c cs)
      refine (repeatWhile_step (by simpa using holds) first (ih (position + 1))).trans ?_
      simp only [List.takeWhile_cons, List.dropWhile_cons, holds, if_true, List.length_cons,
        List.singleton_append]
      congr 2
      omega
    · refine (repeatWhile_stop (by simpa using holds)).trans ?_
      simp [holds]

theorem takeIf_hit {p : Char → Bool} {c : Char} (h : p c = true) (cs : List Char) :
    takeIf p (before limit position (c :: cs)) = .ok [c] (before limit (position + 1) cs) := by
  rw [takeIf, run_get_bind, if_pos (by simpa using h)]
  exact run_bind (read_before_cons limit position c cs)

theorem takeIf_miss {p : Char → Bool} {cs : List Char} (h : cs.head?.any p = false) :
    takeIf p (before limit position cs) = .ok [] (before limit position cs) := by
  rw [takeIf, run_get_bind, if_neg (by simp [h])]
  rfl

/-- From what begins with `w` and goes on with `rest` the scan takes `w`, and returns `a`. -/
def Reads (scan : Scan α) (w : List Char) (a : α) (rest : List Char) : Prop :=
  ∀ limit position, scan (before limit position (w ++ rest)) =
    .ok a (before limit (position + w.length) rest)

theorem reads_pure (a : α) (rest : List Char) : Reads (pure a) [] a rest := fun _ _ => rfl

theorem reads_read (c : Char) (rest : List Char) : Reads read [c] (some c) rest :=
  fun limit position => read_before_cons limit position c rest

theorem reads_bind {scan : Scan α} {f : α → Scan β} {u v rest : List Char} {a : α} {b : β}
    (first : Reads scan u a (v ++ rest)) (second : Reads (f a) v b rest) :
    Reads (scan >>= f) (u ++ v) b rest := by
  intro limit position
  rw [List.append_assoc, run_bind (first limit position), second, List.length_append,
    Nat.add_assoc]

theorem reads_map {scan : Scan α} {w rest : List Char} {a : α} (h : Reads scan w a rest)
    (f : α → β) : Reads (scan >>= fun a => pure (f a)) w (f a) rest :=
  fun limit position => run_bind (h limit position)

theorem reads_get {f : Source → Scan β} {w rest : List Char} {b : β}
    (h : ∀ limit position, Reads (f (before limit position (w ++ rest))) w b rest) :
    Reads (get >>= f) w b rest :=
  fun limit position => h limit position limit position

theorem reads_takeIf_hit {p : Char → Bool} {c : Char} (h : p c = true) (rest : List Char) :
    Reads (takeIf p) [c] [c] rest := fun limit position => takeIf_hit limit position h rest

theorem reads_takeIf_miss {p : Char → Bool} {rest : List Char} (h : rest.head?.any p = false) :
    Reads (takeIf p) [] [] rest := fun limit position => takeIf_miss limit position h

theorem takeIf_sound {p : Char → Bool} {limit position : Nat} {cs w : List Char} {t : Source}
    (h : takeIf p (before limit position cs) = .ok w t) :
    ∃ rest, cs = w ++ rest ∧ t = before limit (position + w.length) rest ∧
      (w = [] ∧ cs.head?.any p = false ∨ ∃ c, w = [c] ∧ p c = true) := by
  cases cs with
  | nil =>
    cases (takeIf_miss limit position rfl).symm.trans h
    exact ⟨[], rfl, rfl, Or.inl ⟨rfl, rfl⟩⟩
  | cons c cs =>
    by_cases holds : p c = true
    · cases (takeIf_hit limit position holds cs).symm.trans h
      exact ⟨cs, rfl, rfl, Or.inr ⟨c, rfl, holds⟩⟩
    · have miss : (c :: cs).head?.any p = false := by simpa using holds
      cases (takeIf_miss limit position miss).symm.trans h
      exact ⟨c :: cs, rfl, rfl, Or.inl ⟨rfl, miss⟩⟩

end Scan

end TemplateExpr
