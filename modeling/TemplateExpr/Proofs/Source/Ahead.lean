import TemplateExpr.Proofs.Source.Spans
/-!
What is ahead of a source: its characters up to the first thing that is none. A scan has seen no more of it than what
it has taken and the character behind. `Commits` says so: wherever the same characters stand in front of that
character, the scan takes them and returns the same.
-/
namespace TemplateExpr

def Arrival.leading : List Arrival → List Char
  | .char c :: rest => c :: leading rest
  | _ => []

namespace Source

/-- The characters from the current one on, up to the end or to a failure. -/
def ahead (s : Source) : List Char :=
  match s.current, s.next with
  | none, _ => []
  | some c, none => [c]
  | some c, some d => c :: d :: Arrival.leading s.upcoming

theorem ahead_before (limit position : Nat) (cs : List Char) : (before limit position cs).ahead = cs := by
  have leading (cs : List Char) : Arrival.leading (cs.map .char) = cs := by
    induction cs with
    | nil => rfl
    | cons c cs ih => rw [List.map_cons, Arrival.leading, ih]
  match cs with
  | [] => rfl
  | [c] => rfl
  | c :: d :: cs => exact congrArg (c :: d :: ·) (leading cs)

theorem ahead_head (s : Source) : s.ahead.head? = s.current := by
  unfold ahead
  split <;> simp_all

theorem ahead_read {s t : Source} {c : Char} (h : read s = .ok (some c) t) : s.ahead = c :: t.ahead := by
  obtain ⟨current, next, _⟩ := read_some h
  unfold read at h
  rw [current] at h
  dsimp only at h
  split at h
  · rename_i following u fetched
    cases h
    cases second : s.next with
    | none => simp_all [ahead]
    | some d =>
      unfold fetch at fetched
      split at fetched
      · rename_i empty
        split at fetched <;> cases fetched
        simp_all [ahead, Arrival.leading]
      · rename_i arrival rest eq
        cases arrival with
        | char e =>
          cases fetched
          simp_all [ahead, Arrival.leading]
        | tooLong | invalid | reserved => cases fetched
  · cases h

theorem Spends.ahead_eq {s t : Source} {w : List Char} (spent : Spends s w t) : s.ahead = w ++ t.ahead := by
  induction spent with
  | nothing => rfl
  | char h _ ih => rw [ahead_read h, ih, List.cons_append]

end Source

namespace Scan

open Source

variable {α β : Type} {scan : Scan α} {f : α → Scan β} {s t u : Source} {v w rest : List Char} {a : α} {b : β}

/-- The scan takes these characters, and it does so with the same result wherever they stand in front of the same
character, or of the end. -/
structure Commits (scan : Scan α) (s : Source) (w : List Char) (a : α) (t : Source) : Prop where
  spends : s.Spends w t
  reads : ∀ rest : List Char, rest.head? = t.current → Reads scan w a rest

theorem current_of_spends (spent : s.Spends w t) (stop : rest.head? = t.current) : (w ++ rest).head? = s.current := by
  rw [spent.current_eq, List.head?_append, List.head?_append, stop]
  cases t.current <;> rfl

theorem next_of_spends (spent : s.Spends w t) (taken : w ≠ []) (stop : rest.head? = t.current) :
    (w ++ rest).tail.head? = s.next := by
  cases spent with
  | nothing => exact absurd rfl taken
  | char first later => exact (current_of_spends later stop).trans (read_some first).2.1

theorem commits_pure (a : α) (s : Source) : Commits (pure a) s [] a s :=
  ⟨.nothing s, fun rest _ => reads_pure a rest⟩

theorem commits_read {c : Char} (h : Source.read s = .ok (some c) t) : Commits Source.read s [c] (some c) t :=
  ⟨.char h (.nothing t), fun rest _ => reads_read c rest⟩

theorem commits_bind (first : Commits scan s v a u) (second : Commits (f a) u w b t) :
    Commits (scan >>= f) s (v ++ w) b t := by
  refine ⟨first.spends.append second.spends, fun rest stop => ?_⟩
  exact reads_bind (first.reads _ (current_of_spends second.spends stop)) (second.reads rest stop)

theorem commits_return (first : Commits scan s w a t) (returned : f a = pure b) :
    Commits (scan >>= f) s w b t := by
  refine ⟨first.spends, fun rest stop limit position => ?_⟩
  rw [run_bind (first.reads rest stop limit position), returned, run_pure]

theorem commits_get {f : Source → Scan β} (here : Commits (f s) s w b t)
    (same : ∀ limit position rest, rest.head? = t.current → f (before limit position (w ++ rest)) = f s) :
    Commits (get >>= f) s w b t := by
  refine ⟨here.spends, fun rest stop => reads_get fun limit position => ?_⟩
  rw [same limit position rest stop]
  exact here.reads rest stop

theorem commits_takeIf {p : Char → Bool} (h : takeIf p s = .ok w t) : Commits (takeIf p) s w w t := by
  rw [takeIf, run_get_bind] at h
  split at h
  · rename_i holds
    obtain ⟨a, u, first, h⟩ := bind_ok h
    cases h
    obtain ⟨c, current, accepted⟩ := (Option.any_eq_true ..).mp holds
    cases read_present current first
    exact ⟨.char first (.nothing _), fun rest _ => reads_takeIf_hit accepted rest⟩
  · rename_i fails
    cases h
    exact ⟨.nothing s, fun rest stop => reads_takeIf_miss (by rw [stop]; simpa using fails)⟩

end Scan

end TemplateExpr
