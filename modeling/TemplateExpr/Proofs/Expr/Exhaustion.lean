import TemplateExpr.Session
import TemplateExpr.Proofs.Expr.Composition
import TemplateExpr.Proofs.Expr.LookBacks
import TemplateExpr.Proofs.Source.Decoding
import TemplateExpr.Proofs.Token.Scanning
/-!
Templates that are read to their end. The parser does nothing to a source but read it, and the outermost template is
over where the source is; so a template is accepted only after all of its bytes have been read, and found to be
within the limit.
-/
namespace TemplateExpr

namespace Parser

section Reading

variable {α β : Type} {m : Parse α} {f : α → Parse β}

/-- A parser that does nothing to its source but read it, and for which the source is at fault only if reading
fails. -/
structure OnlyReads (m : Parse α) : Prop where
  moves : ∀ p a q, m p = .ok a q → p.source.Reaches q.source
  fault : ∀ p e q, m p = .error e q → e.OfSource → ∃ u t, p.source.Reaches u ∧ Source.read u = .error e t

theorem onlyReads_pure (a : α) : OnlyReads (pure a) := by
  constructor
  · intro p b q done
    cases done
    exact .refl p.source
  · intro p e q failed
    cases failed

theorem onlyReads_get : OnlyReads (get : Parse Parser) := by
  constructor
  · intro p b q done
    cases done
    exact .refl p.source
  · intro p e q failed
    cases failed

theorem onlyReads_modify {change : Parser → Parser} (same : ∀ p, (change p).source = p.source) :
    OnlyReads (modify change : Parse Unit) := by
  constructor
  · intro p b q done
    cases done
    rw [same]
    exact .refl p.source
  · intro p e q failed
    cases failed

theorem onlyReads_throw {e : Error} (own : ¬ e.OfSource) : OnlyReads (throw e : Parse α) := by
  constructor
  · intro p a q done
    cases done
  · intro p e' q failed ofSource
    cases failed
    exact absurd ofSource own

theorem onlyReads_bind (first : OnlyReads m) (rest : ∀ a, OnlyReads (f a)) : OnlyReads (m >>= f) := by
  constructor
  · intro p b q ends
    obtain ⟨a, r, done, later⟩ := bind_ok ends
    exact (first.moves p a r done).trans ((rest a).moves r b q later)
  · intro p e q fails ofSource
    rcases bind_error fails with failed | ⟨a, r, done, failed⟩
    · exact first.fault p e q failed ofSource
    · obtain ⟨u, t, reached, refused⟩ := (rest a).fault r e q failed ofSource
      exact ⟨u, t, (first.moves p a r done).trans reached, refused⟩

theorem scan_ok {s : Scan α} {p q : Parser} {a : α} (done : scan s p = .ok a q) :
    s p.source = .ok a q.source := by
  unfold scan at done
  split at done
  · rename_i scanned
    cases done
    exact scanned
  · cases done

theorem onlyReads_scan {s : Scan α} (reads : Scan.OnlyReads s) : OnlyReads (scan s) := by
  constructor
  · intro p a q done
    exact reads.moves _ _ _ (scan_ok done)
  · intro p e q failed ofSource
    unfold scan at failed
    split at failed
    · cases failed
    · rename_i scanned
      cases failed
      obtain ⟨u, reached, refused⟩ := reads.fault _ _ _ scanned ofSource.not_isRefusal
      exact ⟨u, _, reached, refused⟩

theorem onlyReads_peek : OnlyReads peek := by
  apply onlyReads_bind onlyReads_get
  intro p
  split
  · exact onlyReads_pure _
  · apply onlyReads_bind (onlyReads_scan Token.onlyReads_nextExpression)
    intro t
    exact onlyReads_bind (onlyReads_modify fun _ => rfl) fun _ => onlyReads_pure _

theorem onlyReads_advance : OnlyReads advance := by
  apply onlyReads_bind onlyReads_get
  intro p
  split
  · exact onlyReads_bind (onlyReads_modify fun _ => rfl) fun _ => onlyReads_pure _
  · exact onlyReads_scan Token.onlyReads_nextExpression

theorem onlyReads_pooled (v : Value) : OnlyReads (pooled v) := by
  constructor
  · intro p a q done
    cases done
    exact .refl p.source
  · intro p e q failed
    cases failed

variable {allow : String → Nat → Except Error Unit}

theorem onlyReads_allowCall (own : ∀ name given e, allow name given = .error e → ¬ e.OfSource) (name : String)
    (given : Nat) : OnlyReads (allowCall allow name given) := by
  unfold allowCall
  split
  · exact onlyReads_pure _
  · rename_i refused
    exact onlyReads_throw (own name given _ refused)

theorem onlyReads_compositional (own : ∀ name given e, allow name given = .error e → ¬ e.OfSource) :
    Compositional allow fun _ m => OnlyReads m where
  pure := onlyReads_pure
  bind := onlyReads_bind
  refuse _ _ := onlyReads_throw id
  exhausted := onlyReads_throw id
  text follow := onlyReads_scan (Token.onlyReads_nextText follow)
  peek := onlyReads_peek
  advance := onlyReads_advance
  pooled := onlyReads_pooled
  allowCall := onlyReads_allowCall own

end Reading

section Ends

variable {allow : String → Nat → Except Error Unit}

theorem current_of_segments {depth values : Nat} {p q : Parser} {ss : List (Segment Expr)}
    (done : segments allow depth none values p = .ok ss q) : q.source.current = none := by
  induction depth generalizing values p ss with
  | zero => cases done
  | succ depth ih =>
    have rest {segment : Segment Expr} {values : Nat} {r : Parser}
        (done : (do return segment :: (← segments allow depth none values) : Parse (List (Segment Expr))) r =
          .ok ss q) : q.source.current = none := by
      obtain ⟨_, _, more, returned⟩ := bind_ok done
      cases returned
      exact ih more
    rw [segments] at done
    obtain ⟨t, r, read, done⟩ := bind_ok done
    obtain ⟨unquoted, ends⟩ := Token.nextText_ends (scan_ok read)
    obtain ⟨token, lexeme, position⟩ := t
    cases token with
    | text => exact rest done
    | lookBackOpen =>
      obtain ⟨_, _, _, done⟩ := bind_ok done
      exact rest done
    | valueOpen =>
      obtain ⟨_, _, _, done⟩ := bind_ok done
      exact rest done
    | expressionOpen =>
      obtain ⟨_, _, _, done⟩ := bind_ok done
      obtain ⟨_, _, _, done⟩ := bind_ok done
      exact rest done
    | functionOpen =>
      obtain ⟨_, _, _, done⟩ := bind_ok done
      obtain ⟨_, _, _, done⟩ := bind_ok done
      exact rest done
    | stop =>
      obtain ⟨current, same⟩ := ends rfl
      cases done
      rw [same, current]
    | follow => exact absurd rfl unquoted
    | number | identifier | quote | keyword | symbol => cases done

theorem template_ok {source : Source} {pool : Pool} {e : Expr} (parsed : (template allow source pool).1 = .ok e) :
    ∃ ss q, segments allow (depthFor source) none 0 ⟨source, none, pool⟩ = .ok ss q ∧ e = .template ss true := by
  unfold template at parsed
  split at parsed
  · rename_i e' p done
    cases parsed
    obtain ⟨ss, q, read, made⟩ := bind_ok done
    exact ⟨ss, q, read, gives_ofSegments ss true q e p made⟩
  · cases parsed

theorem template_error {source : Source} {pool : Pool} {e : Error}
    (own : ∀ name given e, allow name given = .error e → ¬ e.OfSource)
    (refused : (template allow source pool).1 = .error e) (ofSource : e.OfSource) :
    ∃ u t, source.Reaches u ∧ Source.read u = .error e t := by
  have steps := onlyReads_compositional own
  have whole : OnlyReads (do ofSegments (← segments allow (depthFor source) none 0) true) :=
    onlyReads_bind ((throughout steps _).segments none 0) fun ss => steps.ofSegments ss true
  unfold template at refused
  split at refused
  · cases refused
  · rename_i e' p failed
    cases refused
    exact whole.fault _ _ _ failed ofSource

end Ends

end Parser

namespace Session

variable {σ : Type}

theorem check_error {registry : Registry σ} {name : String} {given : Nat} {e : Error}
    (refused : registry.check name given = .error e) : ∃ fault, e = .function fault := by
  unfold Registry.check at refused
  split at refused
  · cases refused
    exact ⟨_, rfl⟩
  · rename_i f _
    cases arity : f.checkArity given with
    | ok => simp [arity, Except.mapError] at refused
    | error fault =>
      rw [arity] at refused
      cases refused
      exact ⟨fault, rfl⟩

theorem check_own (registry : Registry σ) (name : String) (given : Nat) (e : Error)
    (refused : registry.check name given = .error e) : ¬ e.OfSource := by
  obtain ⟨fault, rfl⟩ := check_error refused
  exact id

/-- An expression is compiled only from a text that is within the limit and has been read to its end, and a text
within the limit is never refused for its length. -/
theorem compile_within_limit (session : Session σ) (text : String) :
    (∀ expression, (session.compile text).1 = .ok expression →
      text.utf8ByteSize ≤ session.context.lengthLimit ∧
      ∃ source ss p, Source.ofText session.context.lengthLimit text = .ok source ∧
        Parser.segments session.context.registry.check (Parser.depthFor source) none 0
          ⟨source, none, session.pool⟩ = .ok ss p ∧
        expression.root = .template ss true ∧
        p.source = Source.before session.context.lengthLimit (text.length + 1) []) ∧
    ((∀ c ∈ text.toList, c.toNat ≠ 0xFFFF) → text.utf8ByteSize ≤ session.context.lengthLimit →
      ∀ limit, (session.compile text).1 ≠ .error (.tooLong limit)) := by
  have same : max session.context.lengthLimit Source.minLimit = session.context.lengthLimit :=
    Nat.max_eq_left (Nat.le_max_right _ _)
  constructor
  · intro expression compiled
    obtain ⟨source, opened, parsed⟩ := compileSource_ok compiled
    obtain ⟨ss, p, read, template⟩ := Parser.template_ok parsed
    have steps := Parser.throughout (Parser.onlyReads_compositional (check_own session.context.registry))
    have moved := ((steps (Parser.depthFor source)).segments none 0).moves _ _ _ read
    obtain ⟨cs, encodes, fits, ended⟩ := Source.exhausted opened moved (Parser.current_of_segments read)
    obtain ⟨rfl, size⟩ := Source.text_of_encodes encodes
    rw [same] at fits ended
    exact ⟨size ▸ fits, source, ss, p, opened, read, template, ended⟩
  · intro sound fits limit refused
    have opened := @Source.ofText_before session.context.lengthLimit text (by rwa [same]) sound
    rw [compile, opened] at refused
    obtain ⟨u, t, reached, failed⟩ :=
      Parser.template_error (check_own _) (compileSource_error refused) trivial
    obtain ⟨k, _, rfl⟩ := Source.reaches_before reached
    exact Source.read_before_ne_error failed

/-- A template of seven bytes and six characters, whose limit is just its length. -/
theorem compile_within_limit_tight :
    let session : Session Unit := { context := { maxLength := 7 }, host := () }
    ∃ expression, (session.compile "a$\x7bx\x7dé").1 = .ok expression ∧
      "a$\x7bx\x7dé".utf8ByteSize ≤ session.context.lengthLimit ∧
      (∃ source ss p, Source.ofText 7 "a$\x7bx\x7dé" = .ok source ∧
        Parser.segments session.context.registry.check (Parser.depthFor source) none 0
          ⟨source, none, {}⟩ = .ok ss p ∧
        p.source = Source.before 7 7 []) ∧
      ∀ limit, (session.compile "a$\x7bx\x7dé").1 ≠ .error (.tooLong limit) := by
  intro session
  obtain ⟨expression, compiled⟩ : ∃ expression, (session.compile "a$\x7bx\x7dé").1 = .ok expression := by
    have succeeds : (session.compile "a$\x7bx\x7dé").1.toOption.isSome = true := by decide +kernel
    cases done : (session.compile "a$\x7bx\x7dé").1 with
    | ok expression => exact ⟨expression, rfl⟩
    | error e =>
      rw [done] at succeeds
      cases succeeds
  obtain ⟨whole, unrefused⟩ := compile_within_limit session "a$\x7bx\x7dé"
  obtain ⟨size, source, ss, p, opened, read, _, ended⟩ := whole expression compiled
  have chars : "a$\x7bx\x7dé".toList = ['a', '$', '\x7b', 'x', '\x7d', 'é'] := by decide
  exact ⟨expression, compiled, size, ⟨source, ss, p, opened, read, ended⟩, unrefused (by simp [chars]) size⟩

end Session

end TemplateExpr
