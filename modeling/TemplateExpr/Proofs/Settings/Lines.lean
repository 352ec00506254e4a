import TemplateExpr.Context
import TemplateExpr.Proofs.Text.Lines
import TemplateExpr.Sequencing
/-!
Settings line by line. A pair either sets one thing or fails and sets nothing, whatever has been set before; so a text
sets what its good lines set, the last line of a key last, and every bad line costs one report and nothing else.
-/
namespace TemplateExpr

namespace SettingLine

variable {line : List Char}

def Mute (line : List Char) : Prop :=
  trimBlanks line = [] ∨ ∃ rest, trimBlanks line = '#' :: rest ∨ trimBlanks line = ';' :: rest

theorem ofChars_of_mute (mute : Mute line) : ofChars line = .silent := by
  unfold ofChars
  rcases mute with blank | ⟨rest, hash | semicolon⟩
  · rw [blank]
  · rw [hash]
    rfl
  · rw [semicolon]
    rfl

/-- A line that says something is a pair, split at its first equals sign, or has none. -/
theorem ofChars_cases (loud : ¬ Mute line) :
    (∃ front back, trimBlanks line = front ++ '=' :: back ∧ '=' ∉ front ∧
      ofChars line = .pair (String.ofList (trimBlanks front)) (String.ofList (trimBlanks back))) ∨
    '=' ∉ trimBlanks line ∧ ofChars line = .noPair (String.ofList (trimBlanks line)) := by
  unfold ofChars
  split
  · rename_i blank
    exact absurd (.inl blank) loud
  · rename_i rest hash
    exact absurd (.inr ⟨rest, .inl hash⟩) loud
  · rename_i rest semicolon
    exact absurd (.inr ⟨rest, .inr semicolon⟩) loud
  · by_cases mark : '=' ∈ trimBlanks line
    · obtain ⟨front, back, whole, first⟩ := List.eq_append_cons_of_mem mark
      exact .inl ⟨front, back, whole, first, by rw [whole, splitAtMark?_of_mark first]⟩
    · exact .inr ⟨mark, by rw [splitAtMark?_of_not_mem mark]⟩

/-- A line says nothing exactly if it is blank or begins with a hash or a semicolon. -/
theorem ofChars_eq_silent_iff : ofChars line = .silent ↔ Mute line := by
  refine ⟨fun silent => ?_, ofChars_of_mute⟩
  by_cases mute : Mute line
  · exact mute
  · rcases ofChars_cases mute with ⟨_, _, _, _, pair⟩ | ⟨_, single⟩
    · rw [pair] at silent
      cases silent
    · rw [single] at silent
      cases silent

end SettingLine

inductive SettingKey where
  | maxLength
  | timeout
  | precision
  | rounding
  deriving DecidableEq

inductive Setting where
  | maxLength (bytes : Nat)
  | timeout (limit : Nat)
  | precision (digits : Nat)
  | rounding (mode : RoundingMode)

namespace SettingKey

def name : SettingKey → String
  | maxLength => "max_length"
  | timeout => "timeout"
  | precision => "precision"
  | rounding => "rounding"

theorem name_injective {key key' : SettingKey} (same : key.name = key'.name) : key = key' := by
  revert same
  cases key <;> cases key' <;> decide

def Spells (key : SettingKey) (text : String) : Prop := String.ofList (text.toList.map Char.toLower) = key.name

theorem Spells.unique {key key' : SettingKey} {text : String} (spells : key.Spells text) (spells' : key'.Spells text) :
    key = key' := name_injective (Eq.trans (Eq.symm spells) spells')

end SettingKey

def Setting.key : Setting → SettingKey
  | maxLength _ => .maxLength
  | timeout _ => .timeout
  | precision _ => .precision
  | rounding _ => .rounding

namespace Settings

def put (settings : Settings) : Setting → Settings
  | .maxLength bytes => { settings with maxLength := some bytes }
  | .timeout limit => { settings with timeout := some limit }
  | .precision digits => { settings with precision := some digits }
  | .rounding mode => { settings with rounding := some mode }

def get? (settings : Settings) : SettingKey → Option Setting
  | .maxLength => settings.maxLength.map .maxLength
  | .timeout => settings.timeout.map .timeout
  | .precision => settings.precision.map .precision
  | .rounding => settings.rounding.map .rounding

theorem get?_empty (key : SettingKey) : get? {} key = none := by cases key <;> rfl

theorem get?_put (settings : Settings) (x : Setting) (key : SettingKey) :
    (settings.put x).get? key = if key = x.key then some x else settings.get? key := by
  cases x <;> cases key <;> rfl

/-- What a pair does: it sets the thing that it names, or it does nothing but fail. -/
inductive Does (key : String) : EStateM SettingFault Settings Unit → Prop where
  | sets {x : Setting} (spells : x.key.Spells key) : Does key (modify (·.put x))
  | fails (fault : SettingFault) : Does key (throw fault)

theorem does (key value : String) : Does key (set key value) := by
  unfold set
  split
  · rename_i spells
    split
    · rename_i bytes _
      exact .sets (x := .maxLength bytes) spells
    · exact .fails _
  · rename_i spells
    split
    · rename_i limit _
      exact .sets (x := .timeout limit) spells
    · exact .fails _
  · rename_i spells
    split
    · rename_i digits _
      exact .sets (x := .precision digits) spells
    · exact .fails _
  · rename_i spells
    split
    · rename_i mode _
      exact .sets (x := .rounding mode) spells
    · exact .fails _
  · exact .fails _

theorem set_error {key value : String} {before after : Settings} {fault : SettingFault}
    (failed : set key value before = .error fault after) : after = before := by
  have how := does key value
  generalize set key value = m at how failed
  cases how with
  | sets spells => cases failed
  | fails fault =>
    cases failed
    rfl

/-- The pair sets just this, whatever has been set before. -/
structure Assigns (pair : String × String) (x : Setting) : Prop where
  spells : x.key.Spells pair.1
  sets : set pair.1 pair.2 = modify (·.put x)

/-- The pair on a line, if it sets something. -/
def goodPair? (line : List Char) : Option (String × String) :=
  match SettingLine.ofChars line with
  | .pair key value =>
    match set key value {} with
    | .ok () _ => some (key, value)
    | .error _ _ => none
  | .noPair _ | .silent => none

def fault? (line : List Char) : Option SettingFault :=
  match obey (.ofChars line) {} with
  | .ok () _ => none
  | .error fault _ => some fault

inductive Reads (line : List Char) : Option (String × String) → Option SettingFault → Prop where
  | silent (reading : SettingLine.ofChars line = .silent) : Reads line none none
  | good {key value : String} {x : Setting} (reading : SettingLine.ofChars line = .pair key value)
      (assigns : Assigns (key, value) x) : Reads line (some (key, value)) none
  | bad {fault : SettingFault} (fails : obey (.ofChars line) = throw fault) : Reads line none (some fault)

theorem reads (line : List Char) : Reads line (goodPair? line) (fault? line) := by
  unfold goodPair? fault?
  cases reading : SettingLine.ofChars line with
  | silent => exact .silent reading
  | noPair text => exact .bad (by rw [reading]; rfl)
  | pair key value =>
    have how := does key value
    rw [obey]
    dsimp only
    generalize act : set key value = m at how ⊢
    cases how with
    | @sets x spells => exact .good reading ⟨spells, act⟩
    | fails fault => exact .bad (by rw [reading, obey, act])

theorem assigns_of_goodPair {line : List Char} {pair : String × String} (good : goodPair? line = some pair) :
    ∃ x, Assigns pair x := by
  have how := reads line
  generalize fault? line = fault at how
  rw [good] at how
  cases how with
  | good reading assigns => exact ⟨_, assigns⟩

theorem fault?_of_goodPair {line : List Char} (good : (goodPair? line).isSome = true) : fault? line = none := by
  have how := reads line
  generalize goodPair? line = pair, fault? line = fault at how good ⊢
  cases how with
  | silent reading => rfl
  | good reading assigns => rfl
  | bad fails => cases good

def setAll (pairs : List (String × String)) : EStateM SettingFault Settings Unit :=
  forM pairs fun pair => set pair.1 pair.2

theorem setAll_goodPairs (lines : List (List Char)) (settings : Settings) (number : Nat) :
    setAll (lines.filterMap goodPair?) settings = .ok () (readLines settings number lines).1 := by
  induction lines generalizing settings number with
  | nil => rfl
  | cons line rest ih =>
    have how := reads line
    rw [List.filterMap_cons, readLines]
    generalize goodPair? line = pair, fault? line = fault at how ⊢
    cases how with
    | silent reading =>
      rw [reading]
      exact ih settings (number + 1)
    | good reading assigns =>
      rw [reading, obey, assigns.sets]
      dsimp only
      rw [setAll, List.forM_cons, assigns.sets]
      exact ih _ (number + 1)
    | bad fails =>
      rw [fails]
      exact ih settings (number + 1)

theorem errors_readLines (lines : List (List Char)) (settings : Settings) (number : Nat) :
    (readLines settings number lines).2 =
      (lines.zipIdx number).filterMap fun (line, number) => (fault? line).map (SettingError.mk number) := by
  induction lines generalizing settings number with
  | nil => rfl
  | cons line rest ih =>
    have how := reads line
    rw [List.zipIdx_cons, List.filterMap_cons, readLines]
    dsimp only
    generalize goodPair? line = pair, fault? line = fault at how ⊢
    cases how with
    | silent reading =>
      rw [reading]
      exact ih settings (number + 1)
    | good reading assigns =>
      rw [reading, obey, assigns.sets]
      exact ih _ (number + 1)
    | bad fails =>
      rw [fails]
      exact congrArg _ (ih settings (number + 1))

/-- The last of the pairs with the key sets this. -/
def LastSets (pairs : List (String × String)) (key : SettingKey) (x : Setting) : Prop :=
  ∃ front pair back, pairs = front ++ pair :: back ∧ key.Spells pair.1 ∧ Assigns pair x ∧
    ∀ later ∈ back, ¬ key.Spells later.1

theorem get?_setAll {pairs : List (String × String)} (good : ∀ pair ∈ pairs, ∃ x, Assigns pair x)
    {before after : Settings} (done : setAll pairs before = .ok () after) (key : SettingKey) :
    (∃ x, LastSets pairs key x ∧ after.get? key = some x) ∨
      (∀ pair ∈ pairs, ¬ key.Spells pair.1) ∧ after.get? key = before.get? key := by
  induction pairs generalizing before with
  | nil =>
    cases done
    exact .inr ⟨nofun, rfl⟩
  | cons pair rest ih =>
    obtain ⟨x, assigns⟩ := good pair List.mem_cons_self
    rw [setAll, List.forM_cons, assigns.sets] at done
    rcases ih (fun other mem => good other (List.mem_cons_of_mem pair mem)) done with
      ⟨y, ⟨front, last, back, whole, spells, sets, silent⟩, here⟩ | ⟨silent, here⟩
    · exact .inl ⟨y, ⟨pair :: front, last, back, by rw [whole, List.cons_append], spells, sets, silent⟩, here⟩
    · rw [get?_put] at here
      by_cases spells : key.Spells pair.1
      · rw [if_pos (spells.unique assigns.spells)] at here
        exact .inl ⟨x, ⟨[], pair, rest, rfl, spells, assigns, silent⟩, here⟩
      · have other : key ≠ x.key := fun same => spells (by rw [same]; exact assigns.spells)
        rw [if_neg other] at here
        exact .inr ⟨List.forall_mem_cons.mpr ⟨spells, silent⟩, here⟩

/-- The text without all lines that are not good. -/
def goodText (text : String) : String :=
  String.ofList ((linesWithEnds text.toList).filter fun line => (goodPair? (withoutEnd line)).isSome).flatten

theorem textLines_goodText (text : String) :
    textLines (goodText text).toList = (textLines text.toList).filter fun line => (goodPair? line).isSome := by
  rw [goodText, String.toList_ofList, textLines_flatten ((endedLines_linesWithEnds text.toList).filter _),
    textLines_eq_map, List.filter_map]
  rfl

theorem filterMap_filter_good (lines : List (List Char)) :
    (lines.filter fun line => (goodPair? line).isSome).filterMap goodPair? = lines.filterMap goodPair? := by
  have same : (fun line => if (goodPair? line).isSome then goodPair? line else none) = goodPair? := by
    funext line
    cases goodPair? line with
    | none => rfl
    | some pair => rfl
  rw [List.filterMap_filter, same]

theorem ofText_goodText (text : String) : ofText (goodText text) = ((ofText text).1, []) := by
  rw [ofText, textLines_goodText]
  refine Prod.ext ?_ ?_
  · have whole := setAll_goodPairs (textLines text.toList) {} 1
    have kept := setAll_goodPairs ((textLines text.toList).filter fun line => (goodPair? line).isSome) {} 1
    rw [filterMap_filter_good, whole] at kept
    injection kept with _ same
    exact same.symm
  · rw [errors_readLines, List.filterMap_eq_nil_iff]
    rintro ⟨line, number⟩ mem
    have good : (goodPair? line).isSome = true := (List.mem_filter.mp (List.fst_mem_of_mem_zipIdx mem)).2
    dsimp only
    rw [fault?_of_goodPair good, Option.map_none]

end Settings

namespace Context

variable {σ : Type}

def get? (context : Context σ) : SettingKey → Option Setting
  | .maxLength => some (.maxLength context.maxLength)
  | .timeout => context.timeout.map .timeout
  | .precision => some (.precision context.math.precision)
  | .rounding => some (.rounding context.math.rounding)

theorem get?_apply (context : Context σ) (settings : Settings) (key : SettingKey) :
    (context.apply settings).get? key = (settings.get? key).or (context.get? key) := by
  obtain ⟨maxLength, timeout, precision, rounding⟩ := settings
  cases key with
  | maxLength => cases maxLength <;> rfl
  | timeout => cases timeout <;> rfl
  | precision => cases precision <;> rfl
  | rounding => cases rounding <;> rfl

end Context

namespace Settings

theorem fault?_eq_none_iff (line : List Char) :
    fault? line = none ↔ SettingLine.ofChars line = .silent ∨ (goodPair? line).isSome = true := by
  have how := reads line
  generalize goodPair? line = pair, fault? line = fault at how ⊢
  cases how with
  | silent reading => exact iff_of_true rfl (.inl reading)
  | good reading assigns => exact iff_of_true rfl (.inr rfl)
  | bad fails =>
    refine iff_of_false nofun ?_
    rintro (reading | good)
    · rw [reading] at fails
      cases congrFun fails {}
    · cases good

def goodPairs (text : String) : List (String × String) := (textLines text.toList).filterMap goodPair?

theorem assigns_of_goodPairs {text : String} {pair : String × String} (mem : pair ∈ goodPairs text) :
    ∃ x, Assigns pair x := by
  obtain ⟨line, _, good⟩ := List.mem_filterMap.mp mem
  exact assigns_of_goodPair good

/-- A bad line is reported, and that is all it does. The settings are what the good lines set one after the other, the
last one with a key deciding on it, and none of them fails. There is a report for every bad line, in their order and
with its number among all lines. Without the lines that are not good a text gives the same settings and no reports, and
a context is changed in those things only that some good line sets. -/
theorem bad_lines_isolated (text : String) :
    setAll (goodPairs text) {} = .ok () (ofText text).1 ∧
      (ofText text).2 = (((textLines text.toList).zipIdx 1).filterMap fun (line, number) =>
        (fault? line).map (SettingError.mk number)) ∧
      (∀ line ∈ textLines text.toList,
        fault? line = none ↔ SettingLine.ofChars line = .silent ∨ (goodPair? line).isSome = true) ∧
      (∀ key value before fault after, set key value before = .error fault after → after = before) ∧
      (∀ key, (∃ x, LastSets (goodPairs text) key x ∧ (ofText text).1.get? key = some x) ∨
        (∀ pair ∈ goodPairs text, ¬ key.Spells pair.1) ∧ (ofText text).1.get? key = none) ∧
      ofText (goodText text) = ((ofText text).1, []) ∧
      ∀ {σ : Type} (context : Context σ), (context.applyText text).2 = (ofText text).2 ∧
        (context.applyText text).1.registry = context.registry ∧
        ∀ key, (context.applyText text).1.get? key = ((ofText text).1.get? key).or (context.get? key) := by
  have set_in_turn : setAll (goodPairs text) {} = .ok () (ofText text).1 := setAll_goodPairs _ {} 1
  refine ⟨set_in_turn, errors_readLines _ {} 1, fun line _ => fault?_eq_none_iff line, fun _ _ _ _ _ => set_error, ?_,
    ofText_goodText text, fun context => ⟨rfl, rfl, context.get?_apply _⟩⟩
  intro key
  rw [← get?_empty key]
  exact get?_setAll (fun _ => assigns_of_goodPairs) set_in_turn key

/-- Comments and blank lines are counted, and the bad line between the good ones does not matter to either. -/
theorem bad_lines_isolated_mixed :
    let text := "precision = 7\r\n# precision\nprecision = many\n\nPRECISION = 8\nnonsense"
    ofText text = ({ precision := some 8 }, [⟨3, .notDigitCount "many"⟩, ⟨6, .notPair "nonsense"⟩]) ∧
      goodPairs text = [("precision", "7"), ("PRECISION", "8")] ∧
      setAll [("precision", "7"), ("PRECISION", "8")] {} = .ok () { precision := some 8 } := by
  intro text
  have read : ofText text = ({ precision := some 8 }, [⟨3, .notDigitCount "many"⟩, ⟨6, .notPair "nonsense"⟩]) := by
    decide
  have good : goodPairs text = [("precision", "7"), ("PRECISION", "8")] := by decide
  have set_in_turn := (bad_lines_isolated text).1
  rw [good, read] at set_in_turn
  exact ⟨read, good, set_in_turn⟩

end Settings

end TemplateExpr
