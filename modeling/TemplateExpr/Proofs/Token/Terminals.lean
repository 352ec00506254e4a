import TemplateExpr.Proofs.Token.Filler
import TemplateExpr.Proofs.Numeral.Lexemes
import TemplateExpr.Proofs.Token.Spelling
/-!
The terminals of an expression, one after the other up to the end of the text or to a failure. Nothing of the text
is lost between them: the text is their lexemes, each at the place that its terminal records, with filler in front.
-/
namespace TemplateExpr

def Terminal.past (t : Terminal) : Nat := t.position + t.lexeme.length

def Terminal.IsName (t : Terminal) : Prop := t.token = .identifier ∨ ∃ word, t.token = .keyword word

def Terminal.IsSingle (t : Terminal) (c : Char) : Prop := (∃ a, t.token = .symbol a) ∧ t.lexeme.toList = [c]

namespace Token

open Scan

structure ReadsTerminal (s u : Source) (t : Terminal) : Prop where
  spends : s.Spends t.lexeme.toList u
  place : t.position = s.position
  stop_iff : t.token = .stop ↔ s.current = none
  empty_iff : t.lexeme.toList = [] ↔ t.token = .stop
  name : t.IsName → u.current.any isIdentifierPart = false
  longest : ∀ c, t.IsSingle c → u.current.bind (ofPair? c) = none

theorem ofPair?_ne {c d : Char} {token : Token} (pair : ofPair? c d = some token) :
    token ≠ .stop ∧ token ≠ .identifier ∧ ∀ word, token ≠ .keyword word := by
  unfold ofPair? at pair
  split at pair <;> cases pair <;> simp

theorem scanIdentifier_ok {s t : Source} {word : String} {c : Char} (current : s.current = some c)
    (start : isIdentifierStart c = true) (h : scanIdentifier s = .ok word t) :
    s.Spends word.toList t ∧ word.toList ≠ [] ∧ t.current.any isIdentifierPart = false := by
  obtain ⟨w, u, taken, h⟩ := bind_ok h
  cases h
  have spent := spends_takeWhile taken
  have ended := repeatWhile_ends taken
  have nonempty : w ≠ [] := by
    intro none
    subst none
    cases spent
    simp [current, isIdentifierPart_of_start start] at ended
  rw [String.toList_ofList]
  exact ⟨spent, nonempty, ended⟩

theorem word_token (word : Option Keyword) : (word.map Token.keyword).getD identifier ≠ .stop := by
  cases word <;> simp

theorem readsTerminal_number {s u : Source} {n : Numeral} {c : Char} (current : s.current = some c)
    (h : Numeral.scan s = .ok n u) : ReadsTerminal s u ⟨.number n, n.text, s.position⟩ := by
  obtain ⟨nonempty, commits⟩ := Numeral.commits_scan h
  constructor
  · exact commits.spends
  · rfl
  · simp [current]
  · simp [nonempty]
  · simp [Terminal.IsName]
  · simp [Terminal.IsSingle]

theorem readsTerminal_word {s u : Source} {word : String} {c : Char} (current : s.current = some c)
    (start : isIdentifierStart c = true) (h : scanIdentifier s = .ok word u) :
    ReadsTerminal s u ⟨((Keyword.ofWord? word).map keyword).getD identifier, word, s.position⟩ := by
  obtain ⟨spent, nonempty, ended⟩ := scanIdentifier_ok current start h
  constructor
  · exact spent
  · rfl
  · simp [current, word_token]
  · simp [nonempty, word_token]
  · exact fun _ => ended
  · rintro c ⟨⟨a, symbol⟩, _⟩
    cases known : Keyword.ofWord? word <;> simp [known] at symbol

theorem readsTerminal_single {s u : Source} {token : Token} {c : Char} {a : Option Char}
    (current : s.current = some c) (h : s.read = .ok a u) (proper : token ≠ .stop)
    (unnamed : token ≠ .identifier ∧ ∀ word, token ≠ .keyword word)
    (alone : (∃ b, token = .symbol b) → s.next.bind (ofPair? c) = none) :
    ReadsTerminal s u ⟨token, c.toString, s.position⟩ := by
  cases Source.read_present current h
  have spent := Source.spends_read h
  constructor
  · simpa using spent
  · rfl
  · simp [current, proper]
  · simp [proper]
  · rintro (named | ⟨word, named⟩)
    · exact absurd named unnamed.1
    · exact absurd named (unnamed.2 word)
  · rintro d ⟨symbol, same⟩
    rw [(Source.read_some h).2.1]
    obtain rfl : c = d := by simpa using same
    exact alone symbol

theorem readsTerminal_pair {s u v : Source} {token : Token} {c : Char} {a b : Option Char}
    (current : s.current = some c) (pair : s.next.bind (ofPair? c) = some token) (first : s.read = .ok a u)
    (second : u.read = .ok b v) : ReadsTerminal s v ⟨token, String.ofList (c :: b.toList), s.position⟩ := by
  obtain ⟨d, next, pair⟩ := Option.bind_eq_some_iff.mp pair
  obtain ⟨proper, unnamed⟩ := ofPair?_ne pair
  cases Source.read_present current first
  cases Source.read_present ((Source.read_some first).2.1.trans next) second
  constructor
  · simpa using Source.Spends.char first (Source.spends_read second)
  · rfl
  · simp [current, proper]
  · simp [proper]
  · rintro (named | ⟨word, named⟩)
    · exact absurd named unnamed.1
    · exact absurd named (unnamed.2 word)
  · simp [Terminal.IsSingle]

theorem scanTerminal_ok {s u : Source} {t : Terminal} (h : scanTerminal s = .ok t u) : ReadsTerminal s u t := by
  unfold scanTerminal at h
  rw [run_get_bind] at h
  cases current : s.current with
  | none =>
    simp only [current] at h
    cases h
    exact ⟨.nothing s, rfl, by simp [current], by simp, by simp [current], by simp [current]⟩
  | some c =>
    simp only [current] at h
    split at h
    · obtain ⟨numeral, v, scanned, h⟩ := bind_ok h
      cases h
      exact readsTerminal_number current scanned
    · split at h
      · rename_i start
        obtain ⟨word, v, scanned, h⟩ := bind_ok h
        cases h
        exact readsTerminal_word current start scanned
      · split at h
        · obtain ⟨a, v, read, h⟩ := bind_ok h
          cases h
          exact readsTerminal_single current read (by simp) (by simp) (by simp)
        · cases pair : s.next.bind (ofPair? c) with
          | some token =>
            simp only [pair] at h
            obtain ⟨a, v, first, h⟩ := bind_ok h
            obtain ⟨b, w, second, h⟩ := bind_ok h
            cases h
            exact readsTerminal_pair current pair first second
          | none =>
            cases single : Symbol.ofChar? c with
            | none =>
              simp only [pair, single] at h
              cases h
            | some a =>
              simp only [pair, single] at h
              obtain ⟨a, v, read, h⟩ := bind_ok h
              cases h
              exact readsTerminal_single current read (by simp) (by simp) fun _ => pair

theorem nextExpression_ok {s u : Source} {t : Terminal} (h : nextExpression s = .ok t u) :
    ∃ w v, s.Spends w v ∧ (Filler w ∨ t.token = .stop ∧ OpenFiller w) ∧ ReadsTerminal v u t := by
  obtain ⟨w, v, trivia, h⟩ := bind_ok h
  obtain ⟨spent, filler⟩ := scanTrivia_ok trivia
  have reads := scanTerminal_ok h
  exact ⟨w, v, spent, filler.imp_right (And.imp_left reads.stop_iff.mpr), reads⟩

theorem nextExpression_progress {s u : Source} {t : Terminal} (h : nextExpression s = .ok t u)
    (more : t.token ≠ .stop) : u.remaining < s.remaining := by
  obtain ⟨w, v, spent, _, reads⟩ := nextExpression_ok h
  have nonempty := List.length_pos_iff.mpr (mt reads.empty_iff.mp more)
  have first := spent.remaining_le
  have second := reads.spends.remaining_le
  omega

/-- The terminals up to the stop or to the first failure, and that failure. -/
def terminals (s : Source) : List Terminal × Option Error :=
  match _ : nextExpression s with
  | .error e _ => ([], some e)
  | .ok t u =>
    if _ : t.token = .stop then ([t], none)
    else
      let (ts, failure) := terminals u
      (t :: ts, failure)
termination_by s.remaining
decreasing_by exact nextExpression_progress (by assumption) (by assumption)

def tokenize (limit : Nat) (text : String) : List Terminal × Option Error :=
  match Source.ofText limit text with
  | .error e => ([], some e)
  | .ok s => terminals s

/-- The characters from one place up to another. -/
def slice (cs : List Char) (start stop : Nat) : List Char := (cs.drop (start - 1)).take (stop - start)

/-- Each terminal with the characters between it and the one before. -/
def parted (cs : List Char) : Nat → List Terminal → List (List Char × Terminal)
  | _, [] => []
  | start, t :: ts => (slice cs start t.position, t) :: parted cs t.past ts

/-- The terminal is what the text has at its place, and as long as it can be. -/
structure Placed (cs : List Char) (t : Terminal) : Prop where
  lexeme : slice cs t.position t.past = t.lexeme.toList
  stop : t.token = .stop → t.position = cs.length + 1 ∧ t.lexeme = ""
  longest : ∀ c, t.IsSingle c → ∀ d, cs[t.past - 1]? = some d → ofPair? c d = none
  named : t.IsName → ∀ d, cs[t.past - 1]? = some d → isIdentifierPart d = false

/-- The terminals account for the text from a place on, for all of it unless there is a failure. -/
structure Lossless (cs : List Char) (start : Nat) (ts : List Terminal) (failure : Option Error) : Prop where
  placed : ∀ t ∈ ts, Placed cs t
  ordered : ts.Pairwise fun t u => t.past ≤ u.position
  behind : ∀ t ∈ ts, start ≤ t.position
  filled : ∀ p ∈ parted cs start ts, Filler p.1 ∨ p.2.token = .stop ∧ OpenFiller p.1
  whole : failure = none →
    (parted cs start ts).flatMap (fun p => p.1 ++ p.2.lexeme.toList) = cs.drop (start - 1)
  ends_iff : failure = none ↔ ∃ t ∈ ts, t.token = .stop
  last : ∀ t ∈ ts, t.token = .stop → ts.getLast? = some t

theorem slice_of_spends {cs w : List Char} {s t : Source} (views : s.Views cs) (spent : s.Spends w t) :
    slice cs s.position t.position = w := by
  have length : t.position - s.position = w.length := by
    rw [spent.position_eq]
    omega
  rw [slice, views.split spent, length, List.take_left]

variable {cs : List Char} {s u : Source} {t : Terminal}

theorem past_of_reads (reads : ReadsTerminal s u t) : t.past = u.position := by
  rw [Terminal.past, reads.place, reads.spends.position_eq, String.length_toList]

theorem placed_of_reads (views : s.Views cs) (reads : ReadsTerminal s u t) : Placed cs t := by
  have later := views.spends reads.spends
  obtain ⟨_, _, current, _⟩ := later.in_view
  have next (d : Char) (found : cs[t.past - 1]? = some d) : u.current = some d := by
    rw [current, ← past_of_reads reads, found]
  constructor
  · rw [reads.place, past_of_reads reads]
    exact slice_of_spends views reads.spends
  · intro stop
    have empty := reads.empty_iff.mpr stop
    obtain ⟨first, inside, current, _⟩ := views.in_view
    have outside := List.getElem?_eq_none_iff.mp (current.symm.trans (reads.stop_iff.mp stop))
    refine ⟨?_, String.toList_eq_nil_iff.mp empty⟩
    rw [reads.place]
    omega
  · intro c single d found
    simpa [next d found] using reads.longest c single
  · intro name d found
    simpa [next d found] using reads.name name

theorem lossless_failed (start : Nat) (e : Error) : Lossless cs start [] (some e) := by
  constructor <;> simp [parted]

variable {start : Nat} {ts : List Terminal} {failure : Option Error}

theorem lossless_stop (placed : Placed cs t) (stop : t.token = .stop) (behind : start ≤ t.position)
    (filled : Filler (slice cs start t.position) ∨ OpenFiller (slice cs start t.position))
    (rest : cs.drop (start - 1) = slice cs start t.position) : Lossless cs start [t] none := by
  have empty := (placed.stop stop).2
  constructor <;> simp_all [parted]

theorem lossless_cons (placed : Placed cs t) (more : t.token ≠ .stop) (behind : start ≤ t.position)
    (filled : Filler (slice cs start t.position))
    (rest : cs.drop (start - 1) = slice cs start t.position ++ t.lexeme.toList ++ cs.drop (t.past - 1))
    (later : Lossless cs t.past ts failure) : Lossless cs start (t :: ts) failure := by
  have longer : t.position ≤ t.past := Nat.le_add_right _ _
  constructor
  · simpa using ⟨placed, later.placed⟩
  · simpa using ⟨later.behind, later.ordered⟩
  · intro u mem
    rcases List.mem_cons.mp mem with rfl | mem
    · exact behind
    · exact Nat.le_trans behind (Nat.le_trans longer (later.behind u mem))
  · simpa [parted, filled] using later.filled
  · intro none
    rw [parted, List.flatMap_cons, later.whole none, rest]
  · simp [later.ends_iff, more]
  · intro u mem stop
    rcases List.mem_cons.mp mem with rfl | mem
    · exact absurd stop more
    · rw [List.getLast?_cons, later.last u mem stop, Option.getD_some]

theorem split_nextExpression {w : List Char} {v : Source} (views : s.Views cs) (spent : s.Spends w v)
    (reads : ReadsTerminal v u t) :
    s.position ≤ t.position ∧ slice cs s.position t.position = w ∧
      cs.drop (s.position - 1) = w ++ t.lexeme.toList ++ cs.drop (t.past - 1) := by
  rw [past_of_reads reads, reads.place, List.append_assoc, ← (views.spends spent).split reads.spends]
  refine ⟨?_, slice_of_spends views spent, views.split spent⟩
  have place := spent.position_eq
  omega

theorem terminals_lossless (views : s.Views cs) :
    Lossless cs s.position (terminals s).1 (terminals s).2 := by
  fun_induction terminals s with
  | case1 => exact lossless_failed _ _
  | case2 s t u found stop =>
    obtain ⟨w, v, spent, filler, reads⟩ := nextExpression_ok found
    have placed := placed_of_reads (views.spends spent) reads
    obtain ⟨behind, rfl, split⟩ := split_nextExpression views spent reads
    apply lossless_stop placed stop behind (filler.imp_right And.right)
    obtain ⟨place, empty⟩ := placed.stop stop
    have nothing : cs.drop (t.past - 1) = [] := by simp [Terminal.past, place, empty]
    simpa [empty, nothing] using split
  | case3 s t u found more ts failure rest ih =>
    obtain ⟨w, v, spent, filler, reads⟩ := nextExpression_ok found
    have placed := placed_of_reads (views.spends spent) reads
    obtain ⟨behind, rfl, split⟩ := split_nextExpression views spent reads
    have later := ih ((views.spends spent).spends reads.spends)
    rw [rest, ← past_of_reads reads] at later
    exact lossless_cons placed more behind (filler.resolve_right fun stop => more stop.1) split later

/-- The terminals of a text, up to its end or to the first failure, account for all of it or for what is in front
of the failure: each stands at its place, in the order of the places, with nothing but filler in front of it.
And none is shorter than it could be: symbols of one character that touch never make a symbol of two, and no name
has a character behind it that continues it. -/
theorem tokenize_lossless (limit : Nat) (text : String) :
    Lossless text.toList 1 (tokenize limit text).1 (tokenize limit text).2 := by
  unfold tokenize
  split
  · exact lossless_failed _ _
  · rename_i s opened
    obtain ⟨views, first⟩ := Source.views_ofText opened
    exact first ▸ terminals_lossless views

end Token

end TemplateExpr
