import TemplateExpr.Proofs.Properties.Escaping
import TemplateExpr.Proofs.Text.Lines
/-!
Texts that write a list of entries, each on a line of its own that may be broken, with comments and empty lines
between them. Reading such a text gives back the entries, and of several for one key the last.
-/
namespace TemplateExpr.Properties

/-- What stays together when a line is broken: a character that is no backslash, or a backslash with the character
behind it. -/
inductive IsUnit : List Char → Prop where
  | sign {c : Char} (not_blank : isBlank c = false) (not_backslash : c ≠ '\\') (not_mark : c ≠ '#' ∧ c ≠ '!') :
    IsUnit [c]
  | pair {d : Char} (not_lineFeed : d ≠ '\n') (not_carriageReturn : d ≠ '\r') : IsUnit ['\\', d]

/-- A line whose units are `units`, with or without breaks. -/
inductive Laid : List (List Char) → List Char → Prop where
  | line (units : List (List Char)) : Laid units units.flatten
  | broken (units : List (List Char)) (indent : List Char) (spaces : ∀ c ∈ indent, c = ' ' ∨ c = '\t')
      {more : List (List Char)} {cs : List Char} (rest : Laid more cs) :
      Laid (units ++ more) (units.flatten ++ '\\' :: '\n' :: (indent ++ cs))

inductive Ignored : List Char → Prop where
  | blank {line : List Char} (blanks : ∀ c ∈ line, isBlank c = true) : Ignored line
  | comment (indent : List Char) (blanks : ∀ c ∈ indent, isBlank c = true) {mark : Char}
      (marks : mark = '#' ∨ mark = '!') (body : List Char) : Ignored (indent ++ mark :: body)

def entryUnits (key value : String) : List (List Char) :=
  key.toList.map escapeChar ++ ['='] :: value.toList.map escapeChar

/-- A text that writes these entries in this order. -/
inductive Written : List (String × String) → List Char → Prop where
  | nil : Written [] []
  | ignored {line tail rest : List Char} (ignored : Ignored line) (unbroken : '\n' ∉ line) (ends : EndsLine tail rest)
      {pairs : List (String × String)} (more : Written pairs rest) : Written pairs (line ++ tail)
  | entry {key value : String} {line tail rest : List Char} (laid : Laid (entryUnits key value) line)
      (ends : EndsLine tail rest) {pairs : List (String × String)} (more : Written pairs rest) :
      Written ((key, value) :: pairs) (line ++ tail)

theorem written_plain (pairs : List (String × String)) :
    Written pairs (pairs.flatMap fun (key, value) => (entryUnits key value).flatten ++ ['\n']) := by
  induction pairs with
  | nil => exact .nil
  | cons pair pairs ih =>
    obtain ⟨key, value⟩ := pair
    rw [List.flatMap_cons, List.append_assoc]
    exact .entry (.line _) (.line .feed _) ih

/-! ### Open ends -/

theorem endsOpen_append_backslash (line : List Char) : endsOpen (line ++ ['\\']) = !endsOpen line := by
  have one : (List.takeWhile (· == '\\') ('\\' :: line.reverse)).length =
      (line.reverse.takeWhile (· == '\\')).length + 1 := rfl
  rw [endsOpen, endsOpen, List.reverse_append, List.reverse_singleton, List.singleton_append, one, Bool.eq_iff_iff,
    Bool.not_eq_true', beq_iff_eq, beq_eq_false_iff_ne]
  omega

theorem endsOpen_append_of_ne (line : List Char) {c : Char} (other : c ≠ '\\') : endsOpen (line ++ [c]) = false := by
  simp [endsOpen, other]

theorem endsOpen_append_unit {u : List Char} (unit : IsUnit u) {line : List Char} (closed : endsOpen line = false) :
    endsOpen (line ++ u) = false := by
  cases unit with
  | sign _ other _ => exact endsOpen_append_of_ne line other
  | @pair d _ _ =>
    have split : line ++ ['\\', d] = line ++ ['\\'] ++ [d] := by simp
    rw [split]
    by_cases again : d = '\\'
    · subst again
      rw [endsOpen_append_backslash, endsOpen_append_backslash, closed]
      rfl
    · exact endsOpen_append_of_ne _ again

theorem endsOpen_append_units {units : List (List Char)} (all : ∀ u ∈ units, IsUnit u) {line : List Char}
    (closed : endsOpen line = false) : endsOpen (line ++ units.flatten) = false := by
  induction units generalizing line with
  | nil => simpa using closed
  | cons u units ih =>
    rw [List.flatten_cons, ← List.append_assoc]
    exact ih (fun v mem => all v (List.mem_cons_of_mem _ mem))
      (endsOpen_append_unit (all u List.mem_cons_self) closed)

theorem endsOpen_units {units : List (List Char)} (all : ∀ u ∈ units, IsUnit u) : endsOpen units.flatten = false :=
  endsOpen_append_units all (show endsOpen [] = false from rfl)

/-! ### Units -/

theorem IsUnit.not_mem {u : List Char} (unit : IsUnit u) : '\n' ∉ u ∧ '\r' ∉ u := by
  cases unit with
  | sign solid _ _ =>
    simp only [List.mem_singleton]
    constructor
    · rintro rfl
      exact absurd solid (by decide)
    · rintro rfl
      exact absurd solid (by decide)
  | pair feed returns => simp [feed.symm, returns.symm]

theorem not_mem_units {units : List (List Char)} (all : ∀ u ∈ units, IsUnit u) :
    '\n' ∉ units.flatten ∧ '\r' ∉ units.flatten := by
  simp only [List.mem_flatten, not_exists, not_and]
  exact ⟨fun u mem => (all u mem).not_mem.1, fun u mem => (all u mem).not_mem.2⟩

theorem not_mem_broken {units : List (List Char)} (all : ∀ u ∈ units, IsUnit u) :
    '\n' ∉ units.flatten ++ ['\\'] ∧ '\r' ∉ units.flatten ++ ['\\'] := by
  simp only [List.mem_append, not_or]
  exact ⟨⟨(not_mem_units all).1, by decide⟩, (not_mem_units all).2, by decide⟩

theorem counts_of_head {c : Char} (solid : isBlank c = false) (marks : c ≠ '#' ∧ c ≠ '!') (cs : List Char) :
    dropBlanks (c :: cs) = c :: cs ∧ isIgnored (c :: cs) = false := by
  constructor
  · exact List.dropWhile_cons_of_neg (by simp [solid])
  · simp [isIgnored, marks]

theorem IsUnit.counts {u : List Char} (unit : IsUnit u) (cs : List Char) :
    dropBlanks (u ++ cs) = u ++ cs ∧ isIgnored (u ++ cs) = false := by
  cases unit with
  | sign solid _ marks => exact counts_of_head solid marks cs
  | @pair d _ _ => exact counts_of_head (by decide) (by decide) (d :: cs)

theorem counts_of_units {units : List (List Char)} (all : ∀ u ∈ units, IsUnit u) (nonempty : units ≠ []) :
    dropBlanks units.flatten = units.flatten ∧ isIgnored units.flatten = false := by
  cases units with
  | nil => exact absurd rfl nonempty
  | cons u units => exact (all u List.mem_cons_self).counts units.flatten

theorem counts_of_break {units : List (List Char)} (all : ∀ u ∈ units, IsUnit u) :
    dropBlanks (units.flatten ++ ['\\']) = units.flatten ++ ['\\'] ∧
      isIgnored (units.flatten ++ ['\\']) = false := by
  cases units with
  | nil => exact counts_of_head (by decide) (by decide) []
  | cons u units =>
    rw [List.flatten_cons, List.append_assoc]
    exact (all u List.mem_cons_self).counts (units.flatten ++ ['\\'])

theorem isUnit_escapeChar (c : Char) : IsUnit (escapeChar c) := by
  rcases escapeChar_cases c with ⟨same, plain⟩ | ⟨d, pair, escapes⟩
  · rw [same]
    exact .sign plain.not_blank plain.not_backslash ⟨plain.not_hash, plain.not_exclamation⟩
  · rw [pair]
    exact .pair escapes.not_lineFeed escapes.not_carriageReturn

theorem isUnit_entryUnits {key value : String} {u : List Char} (mem : u ∈ entryUnits key value) : IsUnit u := by
  rw [entryUnits, List.mem_append, List.mem_cons, List.mem_map, List.mem_map] at mem
  rcases mem with ⟨c, _, rfl⟩ | rfl | ⟨c, _, rfl⟩
  · exact isUnit_escapeChar c
  · exact .sign (by decide) (by decide) (by decide)
  · exact isUnit_escapeChar c

theorem entryUnits_ne_nil (key value : String) : entryUnits key value ≠ [] := by simp [entryUnits]

theorem flatten_entryUnits (key value : String) : (entryUnits key value).flatten = entryChars key value := by
  rw [entryUnits, List.flatten_append, List.flatten_cons, ← List.flatMap_def, ← List.flatMap_def]
  rfl

/-! ### Lines that are ignored, go on or end -/

theorem dropBlanks_append {indent : List Char} (blanks : ∀ c ∈ indent, isBlank c = true) (cs : List Char) :
    dropBlanks (indent ++ cs) = dropBlanks cs := List.dropWhile_append_of_pos blanks

theorem isBlank_of_space {c : Char} (space : c = ' ' ∨ c = '\t') : isBlank c = true := by
  rcases space with rfl | rfl
  · decide
  · decide

theorem not_mem_indented {indent cs : List Char} (spaces : ∀ c ∈ indent, c = ' ' ∨ c = '\t')
    (whole : '\n' ∉ cs ∧ '\r' ∉ cs) : '\n' ∉ indent ++ cs ∧ '\r' ∉ indent ++ cs := by
  simp only [List.mem_append, not_or]
  exact ⟨⟨fun mem => absurd (spaces _ mem) (by decide), whole.1⟩,
    fun mem => absurd (spaces _ mem) (by decide), whole.2⟩

theorem isIgnored_dropBlanks {line : List Char} (ignored : Ignored line) : isIgnored (dropBlanks line) = true := by
  cases ignored with
  | blank blanks =>
    rw [← List.append_nil line, dropBlanks_append blanks]
    rfl
  | comment indent blanks marks body =>
    rw [dropBlanks_append blanks]
    rcases marks with rfl | rfl
    · rfl
    · rfl

theorem isIgnored_withoutReturn {line : List Char} (ignored : isIgnored (dropBlanks line) = true) :
    isIgnored (dropBlanks (withoutReturn line)) = true := by
  unfold withoutReturn
  split
  · rename_i last
    obtain ⟨kept, rfl⟩ := List.getLast?_eq_some_iff.mp last
    rw [List.dropLast_concat]
    rw [dropBlanks, List.dropWhile_append, ← dropBlanks] at ignored
    cases first : dropBlanks kept with
    | nil => rfl
    | cons c cs =>
      rw [first] at ignored
      exact ignored
  · exact ignored

theorem logicalLines_ignored {raw : List Char} (ignored : isIgnored (dropBlanks raw) = true)
    (rest : List (List Char)) : logicalLines none (raw :: rest) = logicalLines none rest := by
  rw [logicalLines, if_pos (by simp [ignored])]

section Steps
variable {pending : Option (List Char)} {raw line : List Char} (dropped : dropBlanks raw = line)
  (counts : pending ≠ none ∨ isIgnored line = false) (rest : List (List Char))
include dropped counts

theorem logicalLines_open (opened : endsOpen line = true) :
    logicalLines pending (raw :: rest) = logicalLines (some (pending.getD [] ++ line.dropLast)) rest := by
  subst dropped
  rw [logicalLines, if_neg, if_pos opened]
  simpa [Decidable.imp_iff_not_or] using counts

theorem logicalLines_closed (closed : endsOpen line = false) :
    logicalLines pending (raw :: rest) = (pending.getD [] ++ line) :: logicalLines none rest := by
  subst dropped
  rw [logicalLines, if_neg, if_neg (by simp [closed])]
  simpa [Decidable.imp_iff_not_or] using counts

end Steps

/-! ### Entries back from their lines -/

theorem logicalLines_laid {units : List (List Char)} {line tail after : List Char} (laid : Laid units line)
    (all : ∀ u ∈ units, IsUnit u) (ends : EndsLine tail after) (pending : Option (List Char))
    (counts : pending ≠ none ∨ units ≠ []) {indent : List Char} (spaces : ∀ c ∈ indent, c = ' ' ∨ c = '\t') :
    logicalLines pending (textLines (indent ++ (line ++ tail))) =
      (pending.getD [] ++ units.flatten) :: logicalLines none (textLines after) := by
  -- what earlier lines gave is pending, and this line is still indented: both change at every break
  induction laid generalizing pending indent with
  | line units =>
    obtain ⟨unbroken, returns⟩ := not_mem_indented spaces (not_mem_units all)
    have dropped : dropBlanks (indent ++ units.flatten) = units.flatten := by
      rw [dropBlanks_append fun c mem => isBlank_of_space (spaces c mem)]
      by_cases empty : units = []
      · subst empty
        rfl
      · exact (counts_of_units all empty).1
    have counted : pending ≠ none ∨ isIgnored units.flatten = false :=
      counts.imp_right fun nonempty => (counts_of_units all nonempty).2
    rw [← List.append_assoc]
    rcases textLines_endsLine unbroken returns ends with lines | ⟨empty, lines, rfl⟩
    · rw [lines, logicalLines_closed dropped counted _ (endsOpen_units all)]
    · -- the text ends right behind a break, so that no line is left to go on
      rw [lines]
      obtain ⟨rfl, nothing⟩ := List.append_eq_nil_iff.mp empty
      rw [nothing] at counted ⊢
      cases pending with
      | none => simp [isIgnored] at counted
      | some start => simp [logicalLines, textLines]
  | @broken units indent' spaces' more cs _ ih =>
    have these : ∀ u ∈ units, IsUnit u := fun u mem => all u (List.mem_append_left _ mem)
    obtain ⟨unbroken, returns⟩ := not_mem_indented spaces (not_mem_broken these)
    have lines : textLines (indent ++ (units.flatten ++ '\\' :: '\n' :: (indent' ++ cs) ++ tail)) =
        (indent ++ (units.flatten ++ ['\\'])) :: textLines (indent' ++ (cs ++ tail)) := by
      rw [← textLines_append unbroken returns .feed]
      simp
    have dropped : dropBlanks (indent ++ (units.flatten ++ ['\\'])) = units.flatten ++ ['\\'] := by
      rw [dropBlanks_append fun c mem => isBlank_of_space (spaces c mem), (counts_of_break these).1]
    have opened : endsOpen (units.flatten ++ ['\\']) = true := by
      rw [endsOpen_append_backslash, endsOpen_units these]
      rfl
    rw [lines, logicalLines_open dropped (Or.inr (counts_of_break these).2) _ opened, List.dropLast_concat,
      ih (fun u mem => all u (List.mem_append_right _ mem)) _ (Or.inl (Option.some_ne_none _)) spaces',
      Option.getD_some, List.append_assoc, List.flatten_append]

theorem logicalLines_skipped {line tail after : List Char} (ignored : Ignored line) (unbroken : '\n' ∉ line)
    (ends : EndsLine tail after) :
    logicalLines none (textLines (line ++ tail)) = logicalLines none (textLines after) := by
  have whole := isIgnored_dropBlanks ignored
  cases ends with
  | line ending =>
    cases ending with
    | feed =>
      exact (congrArg _ (textLines_append_feed unbroken after)).trans
        (logicalLines_ignored (isIgnored_withoutReturn whole) _)
    | returnFeed =>
      exact (congrArg _ (textLines_append_returnFeed unbroken after)).trans (logicalLines_ignored whole _)
  | text =>
    rw [List.append_nil]
    by_cases empty : line = []
    · rw [empty]
    · rw [textLines_unended unbroken empty]
      exact logicalLines_ignored whole []

theorem logicalLines_written {pairs : List (String × String)} {cs : List Char} (written : Written pairs cs) :
    (logicalLines none (textLines cs)).map entry = pairs := by
  induction written with
  | nil => rfl
  | ignored ignored unbroken ends _ ih => rw [logicalLines_skipped ignored unbroken ends, ih]
  | @entry key value line tail rest laid ends pairs _ ih =>
    have unindented : ∀ c ∈ [], c = ' ' ∨ c = '\t' := nofun
    have lines := logicalLines_laid laid (fun _ => isUnit_entryUnits) ends none (Or.inr (entryUnits_ne_nil key value))
      unindented
    rw [List.nil_append] at lines
    rw [lines, flatten_entryUnits, List.map_cons, ih, Option.getD_none, List.nil_append, entry_entryChars]

/-- Reading gives exactly the entries that were written: a key that is written more than once has its last value,
and one that is not written has none. -/
theorem ofText_written {pairs : List (String × String)} {text : String} (written : Written pairs text.toList)
    (key value : String) :
    (ofText text).get? key = some value ↔
      ∃ front back, pairs = front ++ (key, value) :: back ∧ ∀ later ∈ back, later.1 ≠ key := by
  rw [ofText, logicalLines_written written, Entries.get?_ofList_eq_some_iff]

/-- A comment, an empty line, an entry of nothing, a line with two breaks, and a key again in a last line with a break
at its end. -/
theorem ofText_written_broken :
    Written [("", ""), ("a b", "\\\\"), ("", "=")] "! note\n \t\r\n=\na\\\n\\ b=\\\n\t\\\\\\\\\n=\\=\\\n".toList ∧
      (ofText "! note\n \t\r\n=\na\\\n\\ b=\\\n\t\\\\\\\\\n=\\=\\\n").get? "" = some "=" := by
  have written : Written [("", ""), ("a b", "\\\\"), ("", "=")]
      "! note\n \t\r\n=\na\\\n\\ b=\\\n\t\\\\\\\\\n=\\=\\\n".toList := by
    have note : Ignored "! note".toList := .comment [] nofun (.inr rfl) _
    have blank : Ignored " \t".toList := .blank (List.all_eq_true.mp (by decide))
    have later : Laid [['\\', ' '], ['b'], ['='], ['\\', '\\'], ['\\', '\\']] "\\ b=\\\n\t\\\\\\\\".toList :=
      .broken [['\\', ' '], ['b'], ['=']] ['\t'] (by simp) (.line [['\\', '\\'], ['\\', '\\']])
    have spaced : Laid (entryUnits "a b" "\\\\") "a\\\n\\ b=\\\n\t\\\\\\\\".toList := .broken [['a']] [] nofun later
    have last : Laid (entryUnits "" "=") "=\\=\\\n".toList := .broken [['='], ['\\', '=']] [] nofun (.line [])
    exact .ignored note (by decide) (.line .feed _) (.ignored blank (by decide) (.line .returnFeed _)
      (.entry (.line _) (.line .feed _) (.entry spaced (.line .feed _) (.entry last .text .nil))))
  exact ⟨written, (ofText_written written "" "=").mpr ⟨[("", ""), ("a b", "\\\\")], [], rfl, nofun⟩⟩

end TemplateExpr.Properties
