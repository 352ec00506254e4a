import TemplateExpr.Text.Blank
/-!
The lines of a text, read off from a text that is written line by line.
-/
namespace TemplateExpr

inductive LineEnd : List Char → Prop where
  | feed : LineEnd ['\n']
  | returnFeed : LineEnd ['\r', '\n']

/-- `tail` ends a line and `rest` is what follows. The last line may end with the text. -/
inductive EndsLine : List Char → List Char → Prop where
  | line {ending : List Char} (ends : LineEnd ending) (rest : List Char) : EndsLine (ending ++ rest) rest
  | text : EndsLine [] []

theorem textLines_feed (rest : List Char) : textLines ('\n' :: rest) = [] :: textLines rest := textLines.eq_2 rest

theorem textLines_returnFeed (rest : List Char) : textLines ('\r' :: '\n' :: rest) = [] :: textLines rest :=
  textLines.eq_3 rest

theorem textLines_cons {c : Char} {cs : List Char} (line : c ≠ '\n') (pair : c = '\r' → cs.head? ≠ some '\n') :
    textLines (c :: cs) =
      match textLines cs with
      | [] => [[c]]
      | first :: lines => (c :: first) :: lines := by
  refine textLines.eq_4 c cs line fun rest same behind => ?_
  rw [behind] at pair
  exact pair same rfl

/-- A line without the carriage return that counts as part of its end. -/
def withoutReturn (line : List Char) : List Char := if line.getLast? = some '\r' then line.dropLast else line

theorem withoutReturn_append (line : List Char) : withoutReturn (line ++ ['\r']) = line := by simp [withoutReturn]

theorem withoutReturn_of_not_mem {line : List Char} (returns : '\r' ∉ line) : withoutReturn line = line :=
  if_neg fun last => returns (List.mem_of_getLast? last)

theorem withoutReturn_cons {c : Char} {line : List Char} (goes : c ≠ '\r' ∨ line ≠ []) :
    withoutReturn (c :: line) = c :: withoutReturn line := by
  cases line with
  | nil => simpa [withoutReturn] using goes
  | cons d line =>
    unfold withoutReturn
    rw [List.getLast?_cons_cons, List.dropLast_cons_cons]
    split
    · rfl
    · rfl

theorem head?_append_ne {line tail : List Char} (unbroken : '\n' ∉ line) (nonempty : line ≠ []) :
    (line ++ tail).head? ≠ some '\n' := by
  cases line with
  | nil => exact absurd rfl nonempty
  | cons c line =>
    intro same
    cases same
    exact unbroken List.mem_cons_self

theorem textLines_append_feed {line : List Char} (unbroken : '\n' ∉ line) (rest : List Char) :
    textLines (line ++ '\n' :: rest) = withoutReturn line :: textLines rest := by
  induction line with
  | nil => exact textLines_feed rest
  | cons c line ih =>
    rw [List.mem_cons, not_or] at unbroken
    by_cases last : c = '\r' ∧ line = []
    · obtain ⟨rfl, rfl⟩ := last
      exact textLines_returnFeed rest
    · have goes : c ≠ '\r' ∨ line ≠ [] := Decidable.not_and_iff_not_or_not.mp last
      rw [List.cons_append, textLines_cons (Ne.symm unbroken.1) fun same =>
        head?_append_ne unbroken.2 fun empty => last ⟨same, empty⟩, ih unbroken.2, withoutReturn_cons goes]

theorem textLines_append_returnFeed {line : List Char} (unbroken : '\n' ∉ line) (rest : List Char) :
    textLines (line ++ '\r' :: '\n' :: rest) = line :: textLines rest := by
  have whole : '\n' ∉ line ++ ['\r'] := by simp [unbroken]
  rw [List.append_cons, textLines_append_feed whole, withoutReturn_append]

theorem textLines_append {line ending : List Char} (unbroken : '\n' ∉ line) (returns : '\r' ∉ line)
    (ends : LineEnd ending) (rest : List Char) : textLines (line ++ (ending ++ rest)) = line :: textLines rest := by
  cases ends with
  | feed => exact (textLines_append_feed unbroken rest).trans (by rw [withoutReturn_of_not_mem returns])
  | returnFeed => exact textLines_append_returnFeed unbroken rest

theorem textLines_unended {line : List Char} (unbroken : '\n' ∉ line) (nonempty : line ≠ []) :
    textLines line = [line] := by
  induction line with
  | nil => exact absurd rfl nonempty
  | cons c line ih =>
    rw [List.mem_cons, not_or] at unbroken
    by_cases last : line = []
    · subst last
      exact textLines_cons (Ne.symm unbroken.1) fun _ => nofun
    · have behind : line.head? ≠ some '\n' := by
        rw [← List.append_nil line]
        exact head?_append_ne unbroken.2 last
      rw [textLines_cons (Ne.symm unbroken.1) fun _ => behind, ih unbroken.2 last]

theorem textLines_endsLine {line tail after : List Char} (unbroken : '\n' ∉ line) (returns : '\r' ∉ line)
    (ends : EndsLine tail after) :
    textLines (line ++ tail) = line :: textLines after ∨ line = [] ∧ textLines (line ++ tail) = [] ∧ after = [] := by
  cases ends with
  | line ending => exact Or.inl (textLines_append unbroken returns ending after)
  | text =>
    rw [List.append_nil]
    by_cases empty : line = []
    · subst empty
      exact Or.inr ⟨rfl, rfl, rfl⟩
    · exact Or.inl (textLines_unended unbroken empty)

def linesWithEnds : List Char → List (List Char)
  | [] => []
  | c :: cs =>
    if c = '\n' then [c] :: linesWithEnds cs
    else
      match linesWithEnds cs with
      | [] => [[c]]
      | line :: lines => (c :: line) :: lines

def withoutEnd (line : List Char) : List Char :=
  if line.getLast? = some '\n' then withoutReturn line.dropLast else line

/-- Lines with their ends, which only the last one may do without. -/
inductive EndedLines : List (List Char) → Prop where
  | nil : EndedLines []
  | last {line : List Char} (unbroken : '\n' ∉ line) (nonempty : line ≠ []) : EndedLines [line]
  | cons {line : List Char} {lines : List (List Char)} (unbroken : '\n' ∉ line) (more : EndedLines lines) :
      EndedLines ((line ++ ['\n']) :: lines)

theorem flatten_linesWithEnds (cs : List Char) : (linesWithEnds cs).flatten = cs := by
  induction cs with
  | nil => rfl
  | cons c cs ih =>
    rw [linesWithEnds]
    split
    · rw [List.flatten_cons, ih, List.singleton_append]
    · cases lines : linesWithEnds cs with
      | nil =>
        rw [lines] at ih
        rw [← ih]
        rfl
      | cons line rest =>
        rw [lines] at ih
        rw [← ih]
        rfl

theorem EndedLines.push {c : Char} (other : c ≠ '\n') {line : List Char} {lines : List (List Char)}
    (ended : EndedLines (line :: lines)) : EndedLines ((c :: line) :: lines) := by
  cases ended with
  | last unbroken nonempty =>
    exact .last (List.not_mem_cons_of_ne_of_not_mem (Ne.symm other) unbroken) (List.cons_ne_nil c line)
  | cons unbroken more =>
    rw [← List.cons_append]
    exact .cons (List.not_mem_cons_of_ne_of_not_mem (Ne.symm other) unbroken) more

theorem endedLines_linesWithEnds (cs : List Char) : EndedLines (linesWithEnds cs) := by
  induction cs with
  | nil => exact .nil
  | cons c cs ih =>
    rw [linesWithEnds]
    split
    · rename_i feed
      rw [feed]
      exact .cons (List.not_mem_nil) ih
    · rename_i other
      cases lines : linesWithEnds cs with
      | nil => exact .last (by simpa using Ne.symm other) (List.cons_ne_nil c [])
      | cons line rest => exact (lines ▸ ih).push other

theorem EndedLines.filter {lines : List (List Char)} (ended : EndedLines lines) (keep : List Char → Bool) :
    EndedLines (lines.filter keep) := by
  induction ended with
  | nil => exact .nil
  | @last line unbroken nonempty =>
    cases kept : keep line with
    | true => rw [List.filter_cons_of_pos kept]; exact .last unbroken nonempty
    | false => rw [List.filter_cons_of_neg (by rw [kept]; nofun)]; exact .nil
  | @cons line lines unbroken more ih =>
    cases kept : keep (line ++ ['\n']) with
    | true => rw [List.filter_cons_of_pos kept]; exact .cons unbroken ih
    | false => rw [List.filter_cons_of_neg (by rw [kept]; nofun)]; exact ih

theorem textLines_flatten {lines : List (List Char)} (ended : EndedLines lines) :
    textLines lines.flatten = lines.map withoutEnd := by
  induction ended with
  | nil => rfl
  | @last line unbroken nonempty =>
    have unended : withoutEnd line = line := if_neg fun feed => unbroken (List.mem_of_getLast? feed)
    rw [List.flatten_cons, List.flatten_nil, List.append_nil, textLines_unended unbroken nonempty, List.map_singleton,
      unended]
  | @cons line lines unbroken more ih =>
    have ended : withoutEnd (line ++ ['\n']) = withoutReturn line := by
      rw [withoutEnd, if_pos List.getLast?_concat, List.dropLast_concat]
    rw [List.flatten_cons, List.append_assoc, List.singleton_append, textLines_append_feed unbroken, ih, List.map_cons,
      ended]

theorem textLines_eq_map (cs : List Char) : textLines cs = (linesWithEnds cs).map withoutEnd := by
  rw [← textLines_flatten (endedLines_linesWithEnds cs), flatten_linesWithEnds]

end TemplateExpr
