import TemplateExpr.Expr.Parser
/-!
What parsers yield and what they hold back, put together along the parsers that they are made of.
-/
namespace TemplateExpr.Parser

variable {α β : Type} {m : Parse α} {f : α → Parse β}

section Values

variable {holds : β → Prop}

def Gives (m : Parse α) (holds : α → Prop) : Prop := ∀ p a q, m p = .ok a q → holds a

theorem gives_bind {first : α → Prop} (reads : Gives m first) (rest : ∀ a, first a → Gives (f a) holds) :
    Gives (m >>= f) holds := by
  intro p b q ends
  obtain ⟨a, r, done, later⟩ := bind_ok ends
  exact rest a (reads p a r done) r b q later

theorem gives_after (rest : ∀ a, Gives (f a) holds) : Gives (m >>= f) holds := by
  intro p b q ends
  obtain ⟨a, r, _, later⟩ := bind_ok ends
  exact rest a r b q later

theorem gives_pure {b : β} (here : holds b) : Gives (pure b) holds := by
  intro p a q ends
  cases ends
  exact here

theorem gives_throw (e : Error) : Gives (throw e : Parse β) holds := by
  intro p a q ends
  cases ends

end Values

section Holding

/-- What is held back stays so. -/
def Keeps (m : Parse α) : Prop := ∀ p a q, m p = .ok a q → q.held = p.held

/-- Nothing is held back at the end. -/
def Settles (m : Parse α) : Prop := ∀ p a q, m p = .ok a q → q.held = none

theorem keeps_pure (a : α) : Keeps (pure a) := by
  intro p b q ends
  cases ends
  rfl

theorem keeps_throw (e : Error) : Keeps (throw e : Parse α) := by
  intro p a q ends
  cases ends

theorem keeps_scan (s : Scan α) : Keeps (scan s) := by
  intro p a q ends
  unfold scan at ends
  split at ends
  · cases ends
    rfl
  · cases ends

theorem keeps_ite {c : Prop} [Decidable c] {m' : Parse α} (yes : Keeps m) (no : Keeps m') :
    Keeps (if c then m else m') := by
  split
  · exact yes
  · exact no

theorem keeps_bind (first : Keeps m) (rest : ∀ a, Keeps (f a)) : Keeps (m >>= f) := by
  intro p b q ends
  obtain ⟨a, r, done, later⟩ := bind_ok ends
  rw [rest a r b q later, first p a r done]

theorem settles_bind (first : Settles m) (rest : ∀ a, Keeps (f a)) : Settles (m >>= f) := by
  intro p b q ends
  obtain ⟨a, r, done, later⟩ := bind_ok ends
  rw [rest a r b q later, first p a r done]

theorem settles_after (rest : ∀ a, Settles (f a)) : Settles (m >>= f) := by
  intro p b q ends
  obtain ⟨a, r, _, later⟩ := bind_ok ends
  exact rest a r b q later

theorem settles_throw (e : Error) : Settles (throw e : Parse α) := by
  intro p a q ends
  cases ends

theorem settles_advance : Settles advance := by
  intro p t q ends
  unfold advance at ends
  obtain ⟨state, r, got, rest⟩ := bind_ok ends
  cases got
  cases held : p.held with
  | some t =>
    rw [held] at rest
    cases rest
    rfl
  | none =>
    rw [held] at rest
    rw [keeps_scan _ p t q rest, held]

theorem settles_expect (symbol : Symbol) : Settles (expect symbol) :=
  settles_bind settles_advance fun _ => keeps_ite (keeps_pure _) (keeps_throw _)

theorem settles_eat {symbol : Symbol} {f : Bool → Parse α} (eaten : Keeps (f true))
    (other : Settles (f false)) : Settles (eat symbol >>= f) := by
  intro p a q ends
  obtain ⟨b, r, done, later⟩ := bind_ok ends
  cases b with
  | false => exact other r a q later
  | true =>
    unfold eat at done
    obtain ⟨t, s, _, chosen⟩ := bind_ok done
    split at chosen
    · obtain ⟨t, s', advanced, returned⟩ := bind_ok chosen
      cases returned
      rw [eaten r a q later, settles_advance s t r advanced]
    · cases chosen

end Holding

section Sameness

variable {m' : Parse α} {f' : α → Parse β} {p : Parser}

theorem bind_same (first : m' p = m p) (rest : ∀ a q, m p = .ok a q → f' a q = f a q) :
    (m' >>= f') p = (m >>= f) p := by
  change EStateM.bind m' f' p = EStateM.bind m f p
  unfold EStateM.bind
  rw [first]
  cases done : m p with
  | ok a q => exact rest a q done
  | error e q => rfl

theorem cons_same {m m' : Parse (List α)} (a : α) (same : m' p = m p) :
    (do return a :: (← m') : Parse (List α)) p = (do return a :: (← m) : Parse (List α)) p :=
  bind_same same fun _ _ _ => rfl

/-- What follows a parser that settles needs to be the same only where nothing is held back. -/
theorem bind_settled (settles : Settles m) (rest : ∀ a q, q.held = none → f' a q = f a q) :
    (m >>= f') p = (m >>= f) p :=
  bind_same rfl fun a q done => rest a q (settles p a q done)

end Sameness

end TemplateExpr.Parser
