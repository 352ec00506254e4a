import TemplateExpr.Proofs.Numeral.Acceptance
import TemplateExpr.Proofs.Numeral.Lexemes
/-!
Numerals in place. Wherever a numeral is read, it is as long as it can be: the reader would stop at the same character
if less came behind it, but what is a numeral as a whole is read to its end.
-/
namespace TemplateExpr.Numeral

open Source Scan

variable {s t : Source}

theorem ofText_eq_of_scan {n : Numeral} (h : scan s = .ok n t) : ofText n.text = .ok n := by
  have read := (commits_scan h).2.reads t.current.toList (by cases t.current <;> rfl) 0 0
  obtain ⟨l, rest, value, same, chars, _⟩ := scan_sound read
  have text : l.chars = n.text.toList := by
    rw [same]
    exact String.toList_ofList.symm
  exact (ofText_of_yields text value).trans (congrArg Except.ok same.symm)

theorem ofText_longer {n m : Numeral} {v : List Char} (h : scan s = .ok n t) (more : v ≠ [])
    (stop : v.head? = t.current) : ofText (String.ofList (n.text.toList ++ v)) ≠ .ok m := by
  intro whole
  have sound := ofText_sound_chars whole
  obtain ⟨u, last, opened, scanned⟩ := ofText_eq_ok_iff.mp whole
  obtain ⟨moved, done⟩ := scanAll_ok scanned
  cases (ofText_before (Nat.le_max_left ..) sound).symm.trans opened
  rw [String.toList_ofList, (commits_scan h).2.reads v stop] at moved
  cases moved
  rw [atEnd_before, List.isEmpty_iff] at done
  exact more done

/-- Reading in place takes as much as it can. Wherever a numeral is read, its text is what has been taken from there
on, and the source stands right behind it; read on its own, the text is the same numeral; and no more of what is
ahead than this text is a numeral. -/
theorem scan_maximal {n : Numeral} (h : scan s = .ok n t) :
    s.Spends n.text.toList t ∧ t.position = s.position + n.text.length ∧ s.ahead = n.text.toList ++ t.ahead ∧
      ofText n.text = .ok n ∧
      ∀ w, w <+: s.ahead → n.text.length < w.length → ∀ m, ofText (String.ofList w) ≠ .ok m := by
  have spent := (commits_scan h).2.spends
  refine ⟨spent, spent.position_eq, spent.ahead_eq, ofText_eq_of_scan h, fun w front longer m => ?_⟩
  rw [spent.ahead_eq] at front
  have size : n.text.toList.length = n.text.length := String.length_toList
  obtain ⟨v, rfl⟩ := List.prefix_of_prefix_length_le (List.prefix_append _ t.ahead) front (by omega)
  obtain ⟨behind, same⟩ := (List.prefix_append_right_inj _).mp front
  cases v with
  | nil =>
    rw [List.append_nil] at longer
    omega
  | cons c v =>
    refine ofText_longer h (List.cons_ne_nil c v) ?_
    rw [← ahead_head t, ← same]
    rfl

/-- A point cannot follow an exponent, so the second numeral is none of the first. -/
theorem scan_maximal_point_behind_exponent :
    ∃ s n t, Source.ofText 16 "1e5.5" = .ok s ∧ scan s = .ok n t ∧ n.text = "1e5" ∧ t.ahead = ['.', '5'] ∧
      ofText n.text = .ok n ∧
      ∀ w, w <+: ['1', 'e', '5', '.', '5'] → 3 < w.length → ∀ m, ofText (String.ofList w) ≠ .ok m := by
  have chars : "1e5.5".toList = ['1', 'e', '5', '.', '5'] := by decide
  have front : "1e5".toList = ['1', 'e', '5'] := by decide
  have opened : Source.ofText 16 "1e5.5" = .ok (before 16 1 ['1', 'e', '5', '.', '5']) :=
    ofText_before (by decide) (by simp [chars])
  have reads : (scan.run' (before 16 1 ['1', 'e', '5', '.', '5'])).map (·.text) = some "1e5" := by decide +kernel
  delta EStateM.run' EStateM.run at reads
  cases done : scan (before 16 1 ['1', 'e', '5', '.', '5']) with
  | error e t =>
    rw [done] at reads
    cases reads
  | ok n t =>
    rw [done] at reads
    have text : n.text = "1e5" := Option.some.inj reads
    obtain ⟨_, _, ahead, whole, longest⟩ := scan_maximal done
    rw [ahead_before, text] at longest
    have rest : t.ahead = ['.', '5'] := by simpa [ahead_before, text, front, eq_comm] using ahead
    exact ⟨_, n, t, opened, done, text, rest, whole, longest⟩

end TemplateExpr.Numeral
