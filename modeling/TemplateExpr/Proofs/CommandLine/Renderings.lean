import TemplateExpr.CommandLine.Arguments
import TemplateExpr.Proofs.Text.CharClass
import Mathlib.Data.List.Forall2
/-!
Command lines as they are written. Options may share an argument, a value may be in the argument of its flag or in the
next one, and the template may stand anywhere between two options. `Renders` names all these ways; the arguments that
are read do not depend on which one was taken. Of several options that set one thing the last counts.
-/
namespace TemplateExpr.CommandLine

inductive Switch where
  | debug
  | expression

def Switch.letter : Switch → Char
  | debug => 'd'
  | expression => 'e'

def Switch.flag : Switch → Flag
  | debug => .debug
  | expression => .expression

inductive Taker where
  | timeout
  | precision
  | define

def Taker.letter : Taker → Char
  | timeout => 't'
  | precision => 'p'
  | define => 'D'

inductive Choice where
  | switch (which : Switch)
  | noSettings
  | settings (path : String)
  | valued (taker : Taker) (value : String)

/-- The text of a definition gives the key what is behind its first equals sign, or nothing if it has none. -/
inductive Defines (value : String) : String → String → Prop where
  | split {key text : List Char} (whole : value.toList = key ++ '=' :: text) (first : '=' ∉ key) :
      Defines value (String.ofList key) (String.ofList text)
  | bare (absent : '=' ∉ value.toList) : Defines value value ""

inductive Choice.Means : Choice → Flag → Prop where
  | switch (which : Switch) : Means (.switch which) which.flag
  | noSettings : Means .noSettings (.settings .skip)
  | settings (path : String) : Means (.settings path) (.settings (.file path))
  | timeout {value : String} {limit : Nat} (read : Duration.ofText? value = .ok limit) :
      Means (.valued .timeout value) (.timeout limit)
  | precision {value : String} {digits : Nat} (read : Digits.unsigned? 32 value.toList = some digits) :
      Means (.valued .precision value) (.precision digits)
  | define {value key text : String} (defines : Defines value key text) (named : key ≠ "") :
      Means (.valued .define value) (.define key text)

section Renderings

def letters (switches : List Switch) : List Char := switches.map Switch.letter

def switched (switches : List Switch) : List Choice := switches.map Choice.switch

/-- One argument with one option or more, or two arguments if the value of the last option is the second one. -/
inductive Group : List Choice → List String → Prop where
  | switches {switches : List Switch} (present : switches ≠ []) :
      Group (switched switches) [String.ofList ('-' :: letters switches)]
  | noSettings (front : List Switch) :
      Group (switched front ++ [.noSettings]) [String.ofList ('-' :: (letters front ++ ['f']))]
  | settings (front : List Switch) {path : String} (present : path ≠ "") :
      Group (switched front ++ [.settings path]) [String.ofList ('-' :: (letters front ++ 'f' :: path.toList))]
  | attached (front : List Switch) (taker : Taker) {value : String} (present : value ≠ "") :
      Group (switched front ++ [.valued taker value])
        [String.ofList ('-' :: (letters front ++ taker.letter :: value.toList))]
  | following (front : List Switch) (taker : Taker) (value : String) :
      Group (switched front ++ [.valued taker value])
        [String.ofList ('-' :: (letters front ++ [taker.letter])), value]

inductive Groups : List Choice → List String → Prop where
  | nil : Groups [] []
  | cons {choices more : List Choice} {args later : List String} (first : Group choices args)
      (rest : Groups more later) : Groups (choices ++ more) (args ++ later)

/-- The template is recognized between options, unless it looks like one. -/
inductive Renders (template : String) : List Choice → List String → Prop where
  | between {before after : List Choice} {args later : List String} (front : Groups before args)
      (back : Groups after later) (plain : template.toList.head? = some '-' → template = "-") :
      Renders template (before ++ after) (args ++ template :: later)
  | behind {choices : List Choice} {args : List String} (front : Groups choices args) :
      Renders template choices (args ++ ["--", template])

end Renderings

section Reading

def Taker.read (taker : Taker) : String → Except Fault Flag :=
  (valueReader? taker.letter).get (by cases taker <;> rfl)

def Choice.read : Choice → Except Fault Flag
  | switch which => .ok which.flag
  | noSettings => .ok (.settings .skip)
  | settings path => .ok (.settings (.file path))
  | valued taker value => taker.read value

theorem read_timeout (value : String) :
    Taker.timeout.read value = ((Duration.ofText? value).map .timeout).mapError .duration := rfl

theorem read_precision (value : String) :
    Taker.precision.read value =
      match Digits.unsigned? 32 value.toList with
      | some digits => .ok (.precision digits)
      | none => .error (.badPrecision value) := rfl

theorem read_define (value : String) : Taker.define.read value = definition? value := rfl

theorem exists_defines (value : String) : ∃ key text, Defines value key text := by
  by_cases found : '=' ∈ value.toList
  · obtain ⟨key, text, whole, first⟩ := List.eq_append_cons_of_mem found
    exact ⟨_, _, .split whole first⟩
  · exact ⟨_, _, .bare found⟩

theorem definition?_of_defines {value key text : String} (defines : Defines value key text) :
    definition? value = if key = "" then .error (.badDefinition value) else .ok (.define key text) := by
  have empty (cs : List Char) : cs.isEmpty = true ↔ String.ofList cs = "" := by
    rw [List.isEmpty_iff, ← String.toList_inj, String.toList_ofList]
    rfl
  cases defines with
  | split whole first =>
    rw [definition?, whole, splitAtMark?_of_mark first, Option.getD_some]
    simp only [empty]
  | bare absent =>
    rw [definition?, splitAtMark?_of_not_mem absent, Option.getD_none]
    simp only [empty, String.ofList_toList]

theorem read_eq_ok_iff {choice : Choice} {flag : Flag} : choice.read = .ok flag ↔ choice.Means flag := by
  constructor
  · intro read
    cases choice with
    | switch which =>
      cases read
      exact .switch which
    | noSettings =>
      cases read
      exact .noSettings
    | settings path =>
      cases read
      exact .settings path
    | valued taker value =>
      cases taker with
      | timeout =>
        rw [Choice.read, read_timeout] at read
        cases limit : Duration.ofText? value with
        | error fault =>
          rw [limit] at read
          cases read
        | ok nanoseconds =>
          rw [limit] at read
          cases read
          exact .timeout limit
      | precision =>
        rw [Choice.read, read_precision] at read
        split at read
        · rename_i digits found
          cases read
          exact .precision found
        · cases read
      | define =>
        obtain ⟨key, text, defines⟩ := exists_defines value
        rw [Choice.read, read_define, definition?_of_defines defines] at read
        split at read
        · cases read
        · rename_i named
          cases read
          exact .define defines named
  · intro means
    cases means with
    | switch which => rfl
    | noSettings => rfl
    | settings path => rfl
    | timeout read =>
      rw [Choice.read, read_timeout, read]
      rfl
    | precision read => rw [Choice.read, read_precision, read]
    | define defines named => rw [Choice.read, read_define, definition?_of_defines defines, if_neg named]

end Reading

section Splitting

theorem cluster_switches (next : Option String) (front : List Switch) (rest : List Char) :
    cluster next (letters front ++ rest) = do
      let (flags, taken) ← cluster next rest
      return (front.map Switch.flag ++ flags, taken) := by
  induction front with
  | nil =>
    rw [letters, List.map_nil, List.nil_append]
    cases cluster next rest <;> rfl
  | cons switch front ih =>
    cases switch with
    | debug =>
      change cluster next ('d' :: (letters front ++ rest)) = _
      rw [cluster, ih]
      cases cluster next rest <;> rfl
    | expression =>
      change cluster next ('e' :: (letters front ++ rest)) = _
      rw [cluster, ih]
      cases cluster next rest <;> rfl

theorem cluster_taker (next : Option String) (taker : Taker) (rest : List Char) :
    cluster next (taker.letter :: rest) =
      match rest, next with
      | [], none => .error (.missingValue taker.letter)
      | [], some text => do return ([← taker.read text], true)
      | _, _ => do return ([← taker.read (String.ofList rest)], false) := by
  cases taker <;> rfl

theorem split_option {w : List Char} (present : w ≠ []) (letter : w.head? ≠ some '-') (rest : List String) :
    split (String.ofList ('-' :: w) :: rest) = do
      let (flags, taken) ← cluster rest.head? w
      let (more, others) ← split (if taken then rest.tail else rest)
      return (flags ++ more, others) := by
  rw [split, String.toList_ofList]
  split
  · rename_i dashes
    cases dashes
    exact absurd rfl letter
  · rename_i c cs same
    cases same
    rfl
  · rename_i other
    cases w with
    | nil => exact absurd rfl present
    | cons c cs => exact absurd rfl (other c cs)

theorem mapM_switched (front : List Switch) (choices : List Choice) :
    (switched front ++ choices).mapM Choice.read = do return front.map Switch.flag ++ (← choices.mapM Choice.read) := by
  induction front with
  | nil =>
    change choices.mapM Choice.read = _
    cases choices.mapM Choice.read <;> rfl
  | cons switch front ih =>
    change (Choice.switch switch :: (switched front ++ choices)).mapM Choice.read = _
    rw [List.mapM_cons, ih]
    cases choices.mapM Choice.read <;> rfl

theorem split_clustered {front : List Switch} {tail : List Char} (present : letters front ++ tail ≠ [])
    (letter : tail.head? ≠ some '-') {rest : List String} {last : List Choice} {taken : Bool}
    (clustered : cluster rest.head? tail = do return (← last.mapM Choice.read, taken)) :
    split (String.ofList ('-' :: (letters front ++ tail)) :: rest) = do
      let flags ← (switched front ++ last).mapM Choice.read
      let (more, others) ← split (if taken then rest.tail else rest)
      return (flags ++ more, others) := by
  have first : (letters front ++ tail).head? ≠ some '-' := by
    cases front with
    | nil => exact letter
    | cons switch front => cases switch <;> simp [letters, Switch.letter]
  rw [split_option present first, cluster_switches, clustered, mapM_switched]
  cases last.mapM Choice.read <;> rfl

theorem split_group {choices : List Choice} {args : List String} (group : Group choices args) (rest : List String) :
    split (args ++ rest) = do
      let flags ← choices.mapM Choice.read
      let (more, others) ← split rest
      return (flags ++ more, others) := by
  have dash (taker : Taker) (value : List Char) : (taker.letter :: value).head? ≠ some '-' := by
    cases taker <;> simp [Taker.letter]
  cases group with
  | @switches switches present =>
    have clustered : cluster rest.head? [] = do return (← [].mapM Choice.read, false) := rfl
    have whole : split (String.ofList ('-' :: (letters switches ++ [])) :: rest) = _ :=
      split_clustered (by simpa [letters] using present) (by simp) clustered
    rw [List.append_nil, List.append_nil] at whole
    exact whole
  | noSettings front =>
    have clustered : cluster rest.head? ['f'] = do return (← [.noSettings].mapM Choice.read, false) := rfl
    exact split_clustered (by simp) (by simp) clustered
  | @settings front path present =>
    have clustered : cluster rest.head? ('f' :: path.toList) = do
        return (← [.settings path].mapM Choice.read, false) := by
      cases chars : path.toList with
      | nil => exact absurd (String.toList_eq_nil_iff.mp chars) present
      | cons c cs =>
        change Except.ok ([Flag.settings (.file (String.ofList (c :: cs)))], false) = _
        rw [← chars, String.ofList_toList]
        rfl
    exact split_clustered (by simp) (by simp) clustered
  | @attached front taker value present =>
    have clustered : cluster rest.head? (taker.letter :: value.toList) = do
        return (← [.valued taker value].mapM Choice.read, false) := by
      rw [cluster_taker]
      cases chars : value.toList with
      | nil => exact absurd (String.toList_eq_nil_iff.mp chars) present
      | cons c cs =>
        dsimp only
        rw [← chars, String.ofList_toList, List.mapM_cons, Choice.read]
        cases taker.read value <;> rfl
    exact split_clustered (by simp) (dash taker _) clustered
  | following front taker value =>
    have clustered : cluster (value :: rest).head? [taker.letter] = do
        return (← [.valued taker value].mapM Choice.read, true) := by
      rw [cluster_taker, List.head?_cons, List.mapM_cons, Choice.read]
      dsimp only
      cases taker.read value <;> rfl
    exact split_clustered (by simp) (dash taker _) clustered

theorem split_groups {choices : List Choice} {args : List String} (groups : Groups choices args) (rest : List String) :
    split (args ++ rest) = do
      let flags ← choices.mapM Choice.read
      let (more, others) ← split rest
      return (flags ++ more, others) := by
  induction groups with
  | nil =>
    change split rest = do
      let (more, others) ← split rest
      return ([] ++ more, others)
    cases split rest <;> rfl
  | @cons choices more args later first _ ih =>
    rw [List.append_assoc, split_group first, ih, List.mapM_append]
    cases choices.mapM Choice.read with
    | error fault => rfl
    | ok flags =>
      cases more.mapM Choice.read with
      | error fault => rfl
      | ok behind =>
        cases split rest with
        | error fault => rfl
        | ok both =>
          change Except.ok (flags ++ (behind ++ both.1), both.2) = Except.ok (flags ++ behind ++ both.1, both.2)
          rw [List.append_assoc]

theorem split_template {template : String} (plain : template.toList.head? = some '-' → template = "-")
    (rest : List String) : split (template :: rest) = do
      let (flags, others) ← split rest
      return (flags, template :: others) := by
  rw [split]
  split
  · rename_i dashes
    rw [plain (by rw [dashes]; rfl)] at dashes
    cases dashes
  · rename_i c cs dash
    rw [plain (by rw [dash]; rfl)] at dash
    cases dash
  · rfl

theorem split_dashes (template : String) : split ["--", template] = .ok ([], [template]) := by
  rw [split]
  rfl

theorem split_renders {template : String} {choices : List Choice} {args : List String}
    (renders : Renders template choices args) :
    split args = do return (← choices.mapM Choice.read, [template]) := by
  cases renders with
  | @between before after args later front back plain =>
    have ends : split later = do return (← after.mapM Choice.read, []) := by
      have whole := split_groups back []
      rw [List.append_nil] at whole
      rw [whole]
      have last : split [] = .ok ([], []) := by rw [split]
      rw [last]
      cases after.mapM Choice.read with
      | error fault => rfl
      | ok flags => exact congrArg (fun flags => Except.ok (flags, _)) (List.append_nil flags)
    rw [split_groups front, split_template plain, ends, List.mapM_append]
    cases before.mapM Choice.read <;> cases after.mapM Choice.read <;> rfl
  | behind front =>
    rw [split_groups front, split_dashes]
    cases choices.mapM Choice.read with
    | error fault => rfl
    | ok flags => exact congrArg (fun flags => Except.ok (flags, _)) (List.append_nil flags)

end Splitting

section Values

theorem mapM_eq_ok_iff {choices : List Choice} {flags : List Flag} :
    choices.mapM Choice.read = .ok flags ↔ List.Forall₂ Choice.Means choices flags := by
  induction choices generalizing flags with
  | nil =>
    constructor
    · rintro ⟨⟩
      exact .nil
    · rintro ⟨⟩
      rfl
  | cons choice choices ih =>
    rw [List.mapM_cons]
    constructor
    · intro read
      cases first : choice.read with
      | error fault =>
        rw [first] at read
        cases read
      | ok flag =>
        cases later : choices.mapM Choice.read with
        | error fault =>
          rw [first, later] at read
          cases read
        | ok more =>
          rw [first, later] at read
          cases read
          exact .cons (read_eq_ok_iff.mp first) (ih.mp later)
    · rintro (_ | ⟨first, later⟩)
      rw [read_eq_ok_iff.mpr first, ih.mpr later]
      rfl

theorem exists_flags_iff {choices : List Choice} :
    (∃ flags, List.Forall₂ Choice.Means choices flags) ↔ ∀ choice ∈ choices, ∃ flag, choice.Means flag := by
  induction choices with
  | nil => exact ⟨fun _ => nofun, fun _ => ⟨[], .nil⟩⟩
  | cons choice choices ih =>
    rw [List.forall_mem_cons, ← ih]
    constructor
    · rintro ⟨_, _ | ⟨first, later⟩⟩
      exact ⟨⟨_, first⟩, _, later⟩
    · rintro ⟨⟨flag, first⟩, flags, later⟩
      exact ⟨flag :: flags, .cons first later⟩

theorem Choice.Means.unique {choice : Choice} {flag flag' : Flag} (means : choice.Means flag)
    (means' : choice.Means flag') : flag = flag' :=
  Except.ok.inj ((read_eq_ok_iff.mpr means).symm.trans (read_eq_ok_iff.mpr means'))

end Values

section Fold

inductive Target where
  | debug
  | expression
  | settings
  | timeout
  | precision
  | define (key : String)
  deriving DecidableEq

def Flag.target : Flag → Target
  | debug => .debug
  | expression => .expression
  | settings _ => .settings
  | timeout _ => .timeout
  | precision _ => .precision
  | define key _ => .define key

namespace Arguments

def get? (arguments : Arguments) : Target → Option Flag
  | .debug => if arguments.debug then some .debug else none
  | .expression => if arguments.expression then some .expression else none
  | .settings => some (.settings arguments.settings)
  | .timeout => arguments.timeout.map .timeout
  | .precision => arguments.precision.map .precision
  | .define key => (arguments.defines.get? key).map (.define key)

theorem get?_put (arguments : Arguments) (flag : Flag) (target : Target) :
    (arguments.put flag).get? target = if target = flag.target then some flag else arguments.get? target := by
  cases flag with
  | define key text =>
    cases target with
    | define name =>
      simp only [get?, put, Flag.target, Target.define.injEq, Entries.get?_put]
      split
      · rename_i same
        rw [same, Option.map_some]
      · rfl
    | _ => rfl
  | _ => cases target <;> rfl

end Arguments

def Choice.Sets (choice : Choice) (target : Target) : Prop := ∃ flag, choice.Means flag ∧ flag.target = target

/-- The last of the options that set the thing means this. -/
def LastMeans (choices : List Choice) (target : Target) (flag : Flag) : Prop :=
  ∃ front choice back, choices = front ++ choice :: back ∧ choice.Means flag ∧ flag.target = target ∧
    ∀ later ∈ back, ¬ later.Sets target

theorem get?_foldl {choices : List Choice} {flags : List Flag} (means : List.Forall₂ Choice.Means choices flags)
    (arguments : Arguments) (target : Target) :
    (∃ flag, LastMeans choices target flag ∧ (flags.foldl Arguments.put arguments).get? target = some flag) ∨
      (∀ choice ∈ choices, ¬ choice.Sets target) ∧
        (flags.foldl Arguments.put arguments).get? target = arguments.get? target := by
  induction means generalizing arguments with
  | nil => exact .inr ⟨nofun, rfl⟩
  | @cons choice flag choices flags first _ ih =>
    rw [List.foldl_cons]
    rcases ih (arguments.put flag) with ⟨last, ⟨front, chosen, back, whole, means, same, silent⟩, here⟩ | ⟨silent, here⟩
    · exact .inl ⟨last, ⟨choice :: front, chosen, back, by rw [whole, List.cons_append], means, same, silent⟩, here⟩
    · rw [Arguments.get?_put] at here
      by_cases same : target = flag.target
      · rw [if_pos same] at here
        exact .inl ⟨flag, ⟨[], choice, choices, rfl, first, same.symm, silent⟩, here⟩
      · rw [if_neg same] at here
        refine .inr ⟨List.forall_mem_cons.mpr ⟨?_, silent⟩, here⟩
        rintro ⟨flag', means, same'⟩
        rw [← means.unique first] at same
        exact same same'.symm

end Fold

def TemplateSource.ofArgument (template : String) : TemplateSource :=
  if template = "-" then .standardInput else .argument template

theorem ofList_of_split {args : List String} {template : String} {read : Except Fault (List Flag)}
    (split : split args = do return (← read, [template])) :
    Arguments.ofList args = do return { (← read).foldl Arguments.put {} with template := .ofArgument template } := by
  rw [Arguments.ofList, split]
  cases read <;> rfl

theorem get?_withTemplate (arguments : Arguments) (template : TemplateSource) (target : Target) :
    { arguments with template }.get? target = arguments.get? target := by cases target <;> rfl

/-- A command line means what its options and its template mean, whatever way it is written. It is refused if and only
if the value of some option is. Otherwise the options are put together from the left to the right, so that of several
for one thing the last counts, and what no option sets stays as it is. -/
theorem arguments_rendered {template : String} {choices : List Choice} {args : List String}
    (renders : Renders template choices args) :
    (∀ args', Renders template choices args' → Arguments.ofList args' = Arguments.ofList args) ∧
    (∀ flags, List.Forall₂ Choice.Means choices flags →
      Arguments.ofList args = .ok { flags.foldl Arguments.put {} with template := .ofArgument template }) ∧
    ((∃ fault, Arguments.ofList args = .error fault) ↔ ∃ choice ∈ choices, ∀ flag, ¬ choice.Means flag) ∧
    ∀ arguments, Arguments.ofList args = .ok arguments → arguments.template = .ofArgument template ∧
      ∀ target, (∃ flag, LastMeans choices target flag ∧ arguments.get? target = some flag) ∨
        (∀ choice ∈ choices, ¬ choice.Sets target) ∧ arguments.get? target = Arguments.get? {} target := by
  have read := ofList_of_split (split_renders renders)
  refine ⟨fun args' renders' => ?_, fun flags means => ?_, ?_, fun arguments done => ?_⟩
  · rw [read, ofList_of_split (split_renders renders')]
  · rw [read, mapM_eq_ok_iff.mpr means]
    rfl
  · have invalid : (∃ choice ∈ choices, ∀ flag, ¬ choice.Means flag) ↔
        ¬ ∃ flags, List.Forall₂ Choice.Means choices flags := by
      rw [exists_flags_iff]
      push Not
      rfl
    rw [invalid, read]
    cases flags : choices.mapM Choice.read with
    | ok flags' =>
      refine iff_of_false ?_ (not_not_intro ⟨flags', mapM_eq_ok_iff.mp flags⟩)
      rintro ⟨fault, ⟨⟩⟩
    | error fault =>
      refine iff_of_true ⟨fault, rfl⟩ ?_
      rintro ⟨flags', means⟩
      rw [mapM_eq_ok_iff.mpr means] at flags
      cases flags
  · cases flags : choices.mapM Choice.read with
    | error fault =>
      rw [read, flags] at done
      cases done
    | ok flags' =>
      rw [read, flags] at done
      cases done
      refine ⟨rfl, fun target => ?_⟩
      rw [get?_withTemplate]
      exact get?_foldl (mapM_eq_ok_iff.mp flags) {} target

/-- Values that look like flags or hold several equals signs, and a key that is defined twice. -/
theorem arguments_rendered_mixed :
    let choices : List Choice := [.switch .debug, .switch .expression, .valued .timeout "1.5", .valued .define "a=b=c",
      .valued .precision "+8", .settings "-x", .valued .define "a=--", .noSettings]
    let args := ["-det1.5", "-D", "a=b=c", "-", "-p", "+8", "-f-x", "-Da=--", "-f"]
    Renders "-" choices args ∧ Arguments.ofList args = .ok {
      settings := .skip, timeout := some 1500000000, precision := some 8, defines := ⟨[("a", "--")]⟩, expression := true,
      debug := true, template := .standardInput } := by
  intro choices args
  have renders : Renders "-" choices args := by
    refine @Renders.between "-" [.switch .debug, .switch .expression, .valued .timeout "1.5", .valued .define "a=b=c"]
      [.valued .precision "+8", .settings "-x", .valued .define "a=--", .noSettings] ["-det1.5", "-D", "a=b=c"]
      ["-p", "+8", "-f-x", "-Da=--", "-f"] ?_ ?_ (by decide)
    · exact .cons (.attached [.debug, .expression] .timeout (by decide))
        (.cons (.following [] .define "a=b=c") .nil)
    · exact .cons (.following [] .precision "+8") (.cons (.settings [] (by decide))
        (.cons (.attached [] .define (by decide)) (.cons (.noSettings []) .nil)))
  have first : Defines "a=b=c" "a" "b=c" := @Defines.split "a=b=c" ['a'] ['b', '=', 'c'] (by decide) (by decide)
  have second : Defines "a=--" "a" "--" := @Defines.split "a=--" ['a'] ['-', '-'] (by decide) (by decide)
  have means : List.Forall₂ Choice.Means choices [.debug, .expression, .timeout 1500000000, .define "a" "b=c",
      .precision 8, .settings (.file "-x"), .define "a" "--", .settings .skip] :=
    .cons (.switch .debug) <| .cons (.switch .expression) <| .cons (.timeout (by decide +kernel)) <|
      .cons (.define first (by decide)) <| .cons (.precision (by decide +kernel)) <| .cons (.settings "-x") <|
      .cons (.define second (by decide)) <| .cons .noSettings .nil
  exact ⟨renders, ((arguments_rendered renders).2.1 _ means).trans (by decide)⟩

end TemplateExpr.CommandLine
