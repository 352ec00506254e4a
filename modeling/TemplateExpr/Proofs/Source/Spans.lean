import TemplateExpr.Proofs.Source.Decoding
/-!
Where in a text the characters stand that a scan has read. `Spends` names them, and `Views` keeps a source in step
with its text, as far as the text can be read at all: the place of the cursor is the number of characters behind
it, and both characters in view are the text's. So what is spent is the text between two places.
-/
namespace TemplateExpr

namespace Source

/-- Reading exactly these characters leads from one source to the other. -/
inductive Spends : Source → List Char → Source → Prop where
  | nothing (s : Source) : Spends s [] s
  | char {s t u : Source} {c : Char} {w : List Char} (first : read s = .ok (some c) t)
      (rest : Spends t w u) : Spends s (c :: w) u

theorem Spends.append {s t u : Source} {v w : List Char} (first : Spends s v t) (second : Spends t w u) :
    Spends s (v ++ w) u := by
  induction first with
  | nothing => exact second
  | char h _ ih => exact .char h (ih second)

theorem read_none {s t : Source} (h : read s = .ok none t) : s.current = none ∧ t = s := by
  unfold read at h
  split at h
  · rename_i ended
    cases h
    exact ⟨ended, rfl⟩
  · split at h <;> cases h

theorem read_some {s t : Source} {c : Char} (h : read s = .ok (some c) t) :
    s.current = some c ∧ t.current = s.next ∧ t.position = s.position + 1 := by
  have same := (remaining_read h).1
  unfold read at h
  split at h
  · cases h
  · split at h
    · rename_i next u fetched
      have kept := remaining_fetch fetched
      unfold fetch at fetched
      cases h
      refine ⟨same.symm, kept.1, ?_⟩
      grind
    · cases h

theorem read_present {s t : Source} {c : Char} {a : Option Char} (present : s.current = some c)
    (h : read s = .ok a t) : a = some c :=
  (remaining_read h).1.trans present

theorem spends_read {s t : Source} {c : Option Char} (h : read s = .ok c t) : Spends s c.toList t := by
  cases c with
  | none =>
    rw [(read_none h).2]
    exact .nothing s
  | some c => exact .char h (.nothing t)

theorem Spends.reaches {s t : Source} {w : List Char} (spent : Spends s w t) : Reaches s t := by
  induction spent with
  | nothing s => exact .refl s
  | char h _ ih => exact .step h ih

theorem Reaches.position_le {s t : Source} (reached : Reaches s t) :
    s.position ≤ t.position ∧ t.position + t.remaining ≤ s.position + s.remaining := by
  induction reached with
  | refl s => simp
  | @step s t u c h _ ih =>
    cases c with
    | none => rwa [(read_none h).2] at ih
    | some c =>
      have place := (read_some h).2.2
      have shorter := (remaining_read h).2
      simp only [Option.toList_some, List.length_cons, List.length_nil] at shorter
      omega

theorem Spends.position_eq {s t : Source} {w : List Char} (spent : Spends s w t) :
    t.position = s.position + w.length := by
  induction spent with
  | nothing => rfl
  | char h _ ih =>
    rw [ih, (read_some h).2.2, List.length_cons]
    omega

theorem Spends.remaining_le {s t : Source} {w : List Char} (spent : Spends s w t) :
    t.remaining + w.length ≤ s.remaining := by
  induction spent with
  | nothing => exact Nat.le_refl _
  | char h _ ih =>
    have shorter := (remaining_read h).2
    simp only [Option.toList_some, List.length_cons, List.length_nil] at shorter ⊢
    omega

theorem Spends.current_eq {s t : Source} {w : List Char} (spent : Spends s w t) :
    s.current = (w ++ t.current.toList).head? := by
  cases spent with
  | nothing => cases s.current <;> rfl
  | char h _ => exact (read_some h).1

/-- The source stands in this text: some of it is behind, and of the rest as much is still to come as arrives
before what is no character. -/
inductive Views (cs : List Char) : Source → Prop where
  | all (limit : Nat) (past : List Char) {front : List Char} (text : cs = past ++ front) :
      Views cs (before limit (past.length + 1) front)
  | part (limit : Nat) (past : List Char) {front beyond : List Char} {bar : Arrival} (later : List Arrival)
      (text : cs = past ++ front ++ beyond) (two : 2 ≤ front.length) (noChar : ∀ c, bar ≠ .char c) :
      Views cs (barred limit (past.length + 1) front (bar :: later))

theorem read_at_bar {limit position : Nat} {c d : Char} {bar : Arrival} {later : List Arrival}
    (noChar : ∀ c, bar ≠ .char c) {a : Option Char} {t : Source} :
    read (barred limit position [c, d] (bar :: later)) ≠ .ok a t := by
  intro h
  cases bar with
  | char c => exact noChar c rfl
  | tooLong => cases h
  | invalid => cases h
  | reserved => cases h

theorem Views.read {cs : List Char} {s t : Source} {c : Option Char} (views : Views cs s)
    (h : s.read = .ok c t) : Views cs t := by
  cases views with
  | @all limit past front text =>
    cases front with
    | nil =>
      cases h
      exact .all limit past text
    | cons d front =>
      rw [read_before_cons] at h
      cases h
      have split : cs = past ++ [d] ++ front := by simp [text]
      simpa using Views.all limit _ split
  | @part limit past front beyond bar later text two noChar =>
    match front with
    | [] | [_] => simp at two
    | [d, e] => exact absurd h (read_at_bar noChar)
    | d :: e :: f :: front =>
      rw [read_barred (by simp)] at h
      cases h
      have split : cs = past ++ [d] ++ (e :: f :: front) ++ beyond := by simp [text]
      simpa using Views.part limit _ later split (by simp) noChar

theorem Views.reaches {cs : List Char} {s t : Source} (views : Views cs s) (reached : Reaches s t) :
    Views cs t := by
  induction reached with
  | refl => exact views
  | step h _ ih => exact ih (views.read h)

theorem Views.spends {cs w : List Char} {s t : Source} (views : Views cs s) (spent : Spends s w t) :
    Views cs t :=
  views.reaches spent.reaches

theorem Views.in_view {cs : List Char} {s : Source} (views : Views cs s) :
    0 < s.position ∧ s.position ≤ cs.length + 1 ∧ s.current = cs[s.position - 1]? ∧
      s.next = cs[s.position]? := by
  cases views with
  | @all limit past front text =>
    have behind : (past ++ front)[past.length + 1]? = front[1]? := by simp [List.getElem?_append_right]
    cases front <;> simp [text, behind, List.head?_eq_getElem?]
  | @part limit past front beyond bar later text two noChar =>
    match front with
    | [] | [_] => simp at two
    | d :: e :: front => simp [text, barred, before]

theorem Views.split {cs w : List Char} {s t : Source} (views : Views cs s) (spent : Spends s w t) :
    cs.drop (s.position - 1) = w ++ cs.drop (t.position - 1) := by
  induction spent with
  | nothing => rfl
  | @char s t u c w h _ ih =>
    obtain ⟨pos, _, current, _⟩ := views.in_view
    obtain ⟨found, _, place⟩ := read_some h
    have here : cs[s.position - 1]? = some c := current.symm.trans found
    obtain ⟨inside, same⟩ := List.getElem?_eq_some_iff.mp here
    have next : s.position - 1 + 1 = t.position - 1 := by omega
    rw [List.drop_eq_getElem_cons inside, same, next, ih (views.read h), List.cons_append]

theorem arrivals_of_flatMap (budget : Nat) (cs : List Char) :
    ∃ front, Arrival.ofBytes budget false (cs.flatMap String.utf8EncodeChar) = front.map .char ∧ cs = front ∨
      ∃ beyond bar later, cs = front ++ beyond ∧ (∀ c, bar ≠ .char c) ∧
        Arrival.ofBytes budget false (cs.flatMap String.utf8EncodeChar) = front.map .char ++ bar :: later := by
  induction cs generalizing budget with
  | nil => exact ⟨[], Or.inl ⟨Arrival.ofBytes_nil budget false, rfl⟩⟩
  | cons c cs ih =>
    rw [List.flatMap_cons]
    by_cases fits : c.utf8Size ≤ budget
    · rw [Arrival.ofBytes_utf8EncodeChar_append false fits]
      by_cases bad : c.toNat = 0xFFFF
      · rw [Arrival.ofChar, if_pos bad]
        exact ⟨[], Or.inr ⟨c :: cs, .reserved, _, rfl, by simp, rfl⟩⟩
      · rw [Arrival.ofChar, if_neg bad]
        obtain ⟨front, ⟨rest, rfl⟩ | ⟨beyond, bar, later, rfl, noChar, rest⟩⟩ := ih (budget - c.utf8Size)
        · exact ⟨c :: cs, Or.inl ⟨by rw [rest]; rfl, rfl⟩⟩
        · exact ⟨c :: front, Or.inr ⟨beyond, bar, later, rfl, noChar, by rw [rest]; rfl⟩⟩
    · obtain ⟨later, refused⟩ := Arrival.ofBytes_overrun (Nat.lt_of_not_le fits)
        (cs.flatMap String.utf8EncodeChar)
      exact ⟨[], Or.inr ⟨c :: cs, .tooLong, later, rfl, by simp, refused⟩⟩

theorem opening_bar {front : List Char} {bar : Arrival} {limit : Nat} {later : List Arrival} {s : Source}
    (noChar : ∀ c, bar ≠ .char c) (opened : opening limit (front.map .char ++ bar :: later) = .ok s) :
    2 ≤ front.length := by
  match front with
  | [] | [_] => cases bar <;> first | exact absurd rfl (noChar _) | cases opened
  | _ :: _ :: _ => simp

theorem views_ofText {limit : Nat} {text : String} {s : Source} (opened : ofText limit text = .ok s) :
    Views text.toList s ∧ s.position = 1 := by
  rw [ofText, ofBytes_eq, bytes_of_text] at opened
  obtain ⟨front, ⟨rest, whole⟩ | ⟨beyond, bar, later, split, noChar, rest⟩⟩ :=
    arrivals_of_flatMap (max limit minLimit) text.toList
  · rw [rest, opening_chars] at opened
    cases opened
    exact ⟨.all _ [] whole, rfl⟩
  · rw [rest] at opened
    have two := opening_bar noChar opened
    rw [opening_later two] at opened
    cases opened
    exact ⟨.part _ [] later split two noChar, rfl⟩

end Source

open Source in
theorem Scan.spends_takeWhile {p : Char → Bool} {s t : Source} {w : List Char} (h : takeWhile p s = .ok w t) :
    s.Spends w t := by
  unfold takeWhile at h
  fun_induction repeatWhile (fun s => s.current.any p) _ _ s generalizing w t with
  | case1 s =>
    cases h
    exact .nothing s
  | case2 => cases h
  | case3 => cases h
  | case4 s _ piece u first pieces v later ih =>
    cases h
    obtain ⟨c, x, first, returned⟩ := bind_ok first
    cases returned
    exact (spends_read first).append (ih later)

end TemplateExpr
