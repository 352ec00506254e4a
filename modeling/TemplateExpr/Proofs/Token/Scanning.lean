import TemplateExpr.Token.Expression
import TemplateExpr.Token.Text
import TemplateExpr.Proofs.Numeral.Acceptance
import TemplateExpr.Proofs.Source.Spans
/-!
How tokens move the source. Whatever is scanned, the source is only read, and where it is at fault reading fails;
a template without a closing quote ends at the end of the source and nowhere else.
-/
namespace TemplateExpr.Token

open Scan

section Reading

theorem onlyReads_one : OnlyReads (return (← Source.read).toList : Scan (List Char)) :=
  onlyReads_bind onlyReads_read fun _ => onlyReads_pure _

theorem onlyReads_malformed {α : Type} (position : Nat) (fault : SyntaxFault) :
    OnlyReads (throw (.malformed position fault) : Scan α) := onlyReads_refuse fun _ => trivial

theorem onlyReads_scanHex (count code : Nat) : OnlyReads (scanHex count code) := by
  induction count generalizing code with
  | zero => exact onlyReads_pure code
  | succ count ih =>
    apply onlyReads_bind onlyReads_get
    intro s
    split
    · exact onlyReads_malformed _ _
    · exact onlyReads_bind onlyReads_read fun _ => ih _

theorem onlyReads_scanCode : OnlyReads scanCode := by
  apply onlyReads_bind onlyReads_get
  intro start
  apply onlyReads_bind (onlyReads_scanHex 4 0)
  intro code
  split
  · exact onlyReads_pure _
  · exact onlyReads_malformed _ _

theorem onlyReads_scanEscaped : OnlyReads scanEscaped := by
  apply onlyReads_bind onlyReads_get
  intro s
  split
  · exact onlyReads_bind onlyReads_read fun _ => onlyReads_scanCode
  · split
    · exact onlyReads_bind onlyReads_read fun _ => onlyReads_pure _
    · exact onlyReads_pure _
  · exact onlyReads_pure _

theorem onlyReads_scanPiece : OnlyReads scanPiece := by
  apply onlyReads_ite
  · exact onlyReads_refuse fun _ => trivial
  · apply onlyReads_bind onlyReads_read
    intro c
    split
    · exact onlyReads_scanEscaped
    · exact onlyReads_pure _

theorem onlyReads_scanText (follow : Option Char) : OnlyReads (scanText follow) :=
  onlyReads_repeatWhile onlyReads_scanPiece

theorem onlyReads_scanIdentifier : OnlyReads scanIdentifier :=
  onlyReads_bind (onlyReads_takeWhile _) fun _ => onlyReads_pure _

theorem onlyReads_nextText (follow : Option Char) : OnlyReads (nextText follow) := by
  apply onlyReads_bind onlyReads_get
  intro s
  split
  · exact onlyReads_pure _
  · split
    · exact onlyReads_bind onlyReads_read fun _ => onlyReads_pure _
    · split
      · apply onlyReads_bind onlyReads_read
        intro _
        exact onlyReads_bind onlyReads_read fun _ => onlyReads_pure _
      · split
        · apply onlyReads_bind onlyReads_read
          intro _
          exact onlyReads_bind onlyReads_scanIdentifier fun _ => onlyReads_pure _
        · exact onlyReads_bind (onlyReads_scanText follow) fun _ => onlyReads_pure _

theorem onlyReads_scanCommentEnd : OnlyReads scanCommentEnd := by
  apply onlyReads_bind onlyReads_get
  intro s
  apply onlyReads_bind onlyReads_read
  intro first
  split
  · exact onlyReads_bind onlyReads_read fun _ => onlyReads_pure _
  · exact onlyReads_pure _

theorem onlyReads_scanComment : OnlyReads scanComment := by
  apply onlyReads_bind onlyReads_read
  intro first
  apply onlyReads_bind onlyReads_read
  intro second
  apply onlyReads_bind (onlyReads_repeatWhile onlyReads_one)
  intro body
  exact onlyReads_bind onlyReads_scanCommentEnd fun _ => onlyReads_pure _

theorem onlyReads_scanTrivia : OnlyReads scanTrivia :=
  onlyReads_repeatWhile (onlyReads_ite onlyReads_one onlyReads_scanComment)

theorem onlyReads_scanTerminal : OnlyReads scanTerminal := by
  apply onlyReads_bind onlyReads_get
  intro s
  split
  · exact onlyReads_pure _
  · split
    · exact onlyReads_bind Numeral.onlyReads_scan fun _ => onlyReads_pure _
    · split
      · exact onlyReads_bind onlyReads_scanIdentifier fun _ => onlyReads_pure _
      · split
        · exact onlyReads_bind onlyReads_read fun _ => onlyReads_pure _
        · split
          · apply onlyReads_bind onlyReads_read
            intro _
            exact onlyReads_bind onlyReads_read fun _ => onlyReads_pure _
          · split
            · exact onlyReads_bind onlyReads_read fun _ => onlyReads_pure _
            · exact onlyReads_malformed _ _

theorem onlyReads_nextExpression : OnlyReads nextExpression :=
  onlyReads_bind onlyReads_scanTrivia fun _ => onlyReads_scanTerminal

end Reading

theorem opener?_ne {c : Char} {token : Token} (opens : opener? c = some token) :
    token ≠ .follow ∧ token ≠ .stop ∧ token ≠ .text := by
  unfold opener? at opens
  split at opens <;> cases opens <;> decide

theorem opener?_isSome (c : Char) : (opener? c).isSome = (c == '\x7b' || c == '(' || c == '[') := by
  unfold opener?
  split <;> simp_all

theorem opensInterpolation_eq (s : Source) : opensInterpolation s =
    (s.current = some '$' && ((s.next.bind opener?).isSome || s.next.any isIdentifierStart)) := by
  cases next : s.next with
  | none => simp [opensInterpolation, next]
  | some c => simp only [opensInterpolation, next, Option.any_some, Option.bind_some, opener?_isSome]

section Cases

variable {follow : Option Char} {s : Source} {c : Char}

theorem nextText_opener {token : Token} (dollar : s.current = some '$') (noFollow : some '$' ≠ follow)
    (opens : s.next.bind opener? = some token) :
    nextText follow s = (do
      let _ ← Source.read
      let second ← Source.read
      return ⟨token, String.ofList ('$' :: second.toList), s.position⟩ : Scan Terminal) s := by
  rw [nextText, run_get_bind, dollar]
  dsimp only
  rw [if_neg noFollow, if_pos rfl, opens]

theorem nextText_named (dollar : s.current = some '$') (noFollow : some '$' ≠ follow)
    (noOpener : s.next.bind opener? = none) (names : s.next.any isIdentifierStart = true) :
    nextText follow s = (do
      let _ ← Source.read
      return ⟨.functionOpen, ← scanIdentifier, s.position⟩ : Scan Terminal) s := by
  rw [nextText, run_get_bind, dollar]
  dsimp only
  rw [if_neg noFollow, if_pos rfl, noOpener]
  dsimp only
  rw [if_pos (by simp [names])]

theorem nextText_inText (inside : inText follow s = true) :
    nextText follow s = (do
      return ⟨.text, String.ofList (← scanText follow), s.position⟩ : Scan Terminal) s := by
  simp only [inText, opensInterpolation_eq, Bool.and_eq_true, Bool.not_eq_true', bne_iff_ne] at inside
  obtain ⟨⟨present, noFollow⟩, closed⟩ := inside
  obtain ⟨c, current⟩ := Option.isSome_iff_exists.mp present
  rw [current] at noFollow
  have noOpener : (if c = '$' then s.next.bind opener? else none) = none := by
    split
    · rename_i dollar
      simp_all
    · rfl
  have noName : (decide (c = '$') && s.next.any isIdentifierStart) = false := by
    simp_all
  rw [nextText, run_get_bind, current]
  dsimp only
  rw [if_neg noFollow, noOpener]
  dsimp only
  rw [noName]
  rfl

end Cases

inductive ReadsText (follow : Option Char) (s u : Source) : Terminal → Prop where
  | stop (ended : s.current = none) (same : u = s) : ReadsText follow s u ⟨.stop, "", s.position⟩
  | follow {c : Char} (quote : some c = follow) (first : s.read = .ok (some c) u) :
      ReadsText follow s u ⟨.follow, c.toString, s.position⟩
  | opener {c : Char} {token : Token} {v : Source} (opens : opener? c = some token)
      (first : s.read = .ok (some '$') v) (second : v.read = .ok (some c) u) :
      ReadsText follow s u ⟨token, String.ofList ['$', c], s.position⟩
  | function {name : String} {v : Source} (first : s.read = .ok (some '$') v)
      (named : scanIdentifier v = .ok name u) : ReadsText follow s u ⟨.functionOpen, name, s.position⟩
  | text {cs : List Char} (inside : inText follow s = true) (scanned : scanText follow s = .ok cs u) :
      ReadsText follow s u ⟨.text, String.ofList cs, s.position⟩

theorem nextText_ok {follow : Option Char} {s u : Source} {t : Terminal} (done : nextText follow s = .ok t u) :
    ReadsText follow s u t := by
  by_cases inside : inText follow s = true
  · rw [nextText_inText inside] at done
    obtain ⟨cs, v, scanned, done⟩ := bind_ok done
    cases done
    exact .text inside scanned
  cases current : s.current with
  | none =>
    rw [nextText, run_get_bind, current] at done
    cases done
    exact .stop current rfl
  | some c =>
    by_cases quote : some c = follow
    · rw [nextText, run_get_bind, current] at done
      dsimp only at done
      rw [if_pos quote] at done
      obtain ⟨a, v, first, done⟩ := bind_ok done
      cases done
      cases Source.read_present current first
      exact .follow quote first
    have opens : opensInterpolation s = true := by simpa [inText, current, quote] using inside
    rw [opensInterpolation_eq, Bool.and_eq_true, decide_eq_true_eq] at opens
    obtain ⟨dollar, opens⟩ := opens
    cases current.symm.trans dollar
    cases opener : s.next.bind opener? with
    | some token =>
      rw [nextText_opener dollar quote opener] at done
      obtain ⟨a, v, first, done⟩ := bind_ok done
      obtain ⟨b, w, second, done⟩ := bind_ok done
      cases done
      obtain ⟨d, next, opens⟩ := Option.bind_eq_some_iff.mp opener
      cases Source.read_present current first
      cases Source.read_present ((Source.read_some first).2.1.trans next) second
      exact .opener opens first second
    | none =>
      rw [nextText_named dollar quote opener (by simpa [opener] using opens)] at done
      obtain ⟨a, v, first, done⟩ := bind_ok done
      obtain ⟨name, w, named, done⟩ := bind_ok done
      cases done
      cases Source.read_present current first
      exact .function first named

theorem nextText_ends {s u : Source} {t : Terminal} (done : nextText none s = .ok t u) :
    t.token ≠ .follow ∧ (t.token = .stop → s.current = none ∧ u = s) := by
  cases nextText_ok done with
  | stop ended same => exact ⟨nofun, fun _ => ⟨ended, same⟩⟩
  | follow quote => cases quote
  | opener opens =>
    obtain ⟨unquoted, proper, _⟩ := opener?_ne opens
    exact ⟨unquoted, fun stop => absurd stop proper⟩
  | function | text => exact ⟨nofun, nofun⟩

end TemplateExpr.Token
