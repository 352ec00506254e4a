import TemplateExpr.Proofs.Decimal.IntegerViews
import TemplateExpr.Proofs.Decimal.TextRoundTrip
import TemplateExpr.Proofs.Expr.Ladder
/-!
Which trees can be written: those with names that are no keywords, numbers that are not negative, text that is
neither empty nor next to other text, look-backs to values that are there, and calls that are allowed. The
places that a tree holds follow from how it is written, so two trees that differ in them alone are the same
here.
-/
namespace TemplateExpr

open Token Numeral

namespace Expr

mutual

def unplaced : Expr → Expr
  | constant v => constant v
  | template segments typed => template (unplacedSegments segments) typed
  | reference ⟨name, slice, transforms, length, fallback⟩ =>
    reference ⟨name, unplacedSlice slice, transforms, length, unplacedFallback fallback⟩
  | defined name => defined name
  | conditional c a b => conditional (unplaced c) (unplaced a) (unplaced b)
  | binary op l r => binary op (unplaced l) (unplaced r)
  | unary op e => unary op (unplaced e)
  | convert kind e => convert kind (unplaced e)
  | call name _ arguments => call name 0 (unplacedAll arguments)

def unplacedSegments : List (Segment Expr) → List (Segment Expr)
  | [] => []
  | .text s :: rest => .text s :: unplacedSegments rest
  | .value e :: rest => .value (unplaced e) :: unplacedSegments rest
  | .lookBack distance _ :: rest => .lookBack distance 0 :: unplacedSegments rest

def unplacedSlice : Option (Slice Expr) → Option (Slice Expr)
  | none => none
  | some ⟨⟨start, _⟩, none⟩ => some ⟨⟨unplaced start, 0⟩, none⟩
  | some ⟨⟨start, _⟩, some ⟨count, _⟩⟩ => some ⟨⟨unplaced start, 0⟩, some ⟨unplaced count, 0⟩⟩

def unplacedFallback : Option Expr → Option Expr
  | none => none
  | some e => some (unplaced e)

def unplacedAll : List Expr → List Expr
  | [] => []
  | e :: rest => unplaced e :: unplacedAll rest

end

theorem rank_unplaced (e : Expr) : e.unplaced.rank = e.rank := by
  cases e <;> simp [unplaced, rank]

theorem length_unplacedAll (es : List Expr) : (unplacedAll es).length = es.length := by
  induction es with
  | nil => simp [unplacedAll]
  | cons e es ih => simp [unplacedAll, ih]

theorem text_of_unplacedSegments {s : String} {ss ss' more : List (Segment Expr)}
    (same : unplacedSegments ss = unplacedSegments ss') (first : ss = .text s :: more) :
    ∃ more', ss' = .text s :: more' := by
  subst first
  rcases ss' with _ | ⟨_ | _ | _, rest⟩
  · simp [unplacedSegments] at same
  · simp only [unplacedSegments, List.cons.injEq, Segment.text.injEq] at same
    exact ⟨rest, by rw [same.1]⟩
  · simp [unplacedSegments] at same
  · simp [unplacedSegments] at same

end Expr

open TemplateExpr.Expr

/-- Segments behind so many values. Text is not empty and not next to other text, and a look-back goes to one
of the values before. -/
def Ordered : Nat → List (Segment Expr) → Prop
  | _, [] => True
  | values, .text s :: ss => s ≠ "" ∧ (∀ t more, ss ≠ .text t :: more) ∧ Ordered values ss
  | values, .value _ :: ss => Ordered (values + 1) ss
  | values, .lookBack n _ :: ss => (1 ≤ n ∧ n ≤ values) ∧ FitsSigned 64 n ∧ Ordered values ss

inductive Printable (allow : String → Nat → Except Error Unit) : Expr → Prop where
  | number {d : Decimal} (normal : d.IsNormal) (sign : 0 ≤ d.unscaled) :
      Printable allow (.constant (.number d))
  | logic (b : Bool) : Printable allow (.constant (.logic b))
  | template {ss : List (Segment Expr)} (order : Ordered 0 ss)
      (values : ∀ e, Segment.value e ∈ ss → Printable allow e) : Printable allow (.template ss false)
  | reference {r : Reference Expr} (name : IsName r.name) (start : ∀ s ∈ r.slice, Printable allow s.start.part)
      (count : ∀ s ∈ r.slice, ∀ b ∈ s.count, Printable allow b.part)
      (fallback : ∀ e ∈ r.fallback, Printable allow e) : Printable allow (.reference r)
  | defined {s : String} (name : IsName s) : Printable allow (.defined s)
  | conditional {c a b : Expr} (condition : Printable allow c) (yes : Printable allow a)
      (no : Printable allow b) : Printable allow (.conditional c a b)
  | binary {op : BinaryOp} {a b : Expr} (left : Printable allow a) (right : Printable allow b) :
      Printable allow (.binary op a b)
  | unary {op : UnaryOp} {e : Expr} (operand : Printable allow e) : Printable allow (.unary op e)
  | convert {kind : Kind} {e : Expr} (operand : Printable allow e) : Printable allow (.convert kind e)
  | call {s : String} {position : Nat} {es : List Expr} (name : IsName s)
      (arguments : ∀ e ∈ es, Printable allow e) (allowed : allow s es.length = .ok ()) :
      Printable allow (.call s position es)

variable {allow : String → Nat → Except Error Unit}

/-- Wherever it stands, the expression can be written on the rung with no more parentheses than it needs. -/
def CanWrite (allow : String → Nat → Except Error Unit) (k : Nat) (e : Expr) : Prop :=
  ∀ i, ∃ e' w, e'.unplaced = e.unplaced ∧ Written True allow (.rung k e') i w

theorem canWrite_rung {e : Expr} (own : CanWrite allow e.rank e) {k : Nat} (top : k ≤ 7) :
    CanWrite allow k e := by
  have ranks : ∀ e' : Expr, e'.unplaced = e.unplaced → e'.rank = e.rank := by
    intro e' same
    rw [← rank_unplaced e', same, rank_unplaced]
  intro i
  -- weaker rungs are reached from the own one, stronger ones from the parentheses
  by_cases strong : k ≤ e.rank
  · obtain ⟨e', w, same, written⟩ := own i
    refine ⟨e', w, same, written_weaker strong (rank_le e) (fun _ m _ high => ?_) written⟩
    rw [ranks e' same]
    exact Nat.ne_of_gt high
  · obtain ⟨e', w, same, written⟩ := own (i + 1)
    have rank := ranks e' same
    have inner : Written True allow (.rung 0 e') (i + 1) w := by
      refine written_weaker (Nat.zero_le _) (rank_le e) (fun _ m _ high => ?_) written
      rw [rank]
      exact Nat.ne_of_gt high
    have outer := written_paren (fun _ => by omega) inner
    refine ⟨e', _, same, written_weaker (n := 7) top (Nat.le_refl 7) (fun _ m low _ => ?_) outer⟩
    omega

theorem canWrite_number {d : Decimal} (normal : d.IsNormal) (sign : 0 ≤ d.unscaled) :
    CanWrite allow 7 (.constant (.number d)) := by
  intro i
  obtain ⟨b, value⟩ := Decimal.yields_of_isNormal normal
  have unsigned : d.sign = .none := if_neg (Int.not_lt.mpr sign)
  exact ⟨_, _, rfl, .number (l := ⟨d.sign, b⟩) unsigned value⟩

theorem canWrite_defined {s : String} (name : IsName s) : CanWrite allow 7 (.defined s) := fun _ =>
  ⟨_, _, rfl, .braces trivia_nil (.defined name gap_blank gap_blank)⟩

theorem canWrite_conditional {c a b : Expr} (condition : CanWrite allow 1 c) (yes : CanWrite allow 0 a)
    (no : CanWrite allow 0 b) : CanWrite allow 0 (.conditional c a b) := by
  intro i
  obtain ⟨c', w, sameC, condition⟩ := condition i
  obtain ⟨a', u, sameA, yes⟩ := yes (i + w.length + 1 + 1 + 1)
  obtain ⟨b', v, sameB, no⟩ := no (i + w.length + 1 + 1 + 1 + u.length + 1 + 1 + 1)
  refine ⟨.conditional c' a' b', _, ?_, .conditional condition gap_blank gap_blank yes gap_blank gap_blank no⟩
  simp only [unplaced, sameC, sameA, sameB]

theorem spelled_binary (op : BinaryOp) : ∃ token s, Spelled token s ∧ op.level.operator? token = some op := by
  cases op with
  | equal => exact ⟨_, ['='], .single rfl, rfl⟩
  | notEqual => exact ⟨_, ['<', '>'], .pair rfl, rfl⟩
  | less => exact ⟨_, ['<'], .single rfl, rfl⟩
  | greater => exact ⟨_, ['>'], .single rfl, rfl⟩
  | lessEqual => exact ⟨_, ['<', '='], .pair rfl, rfl⟩
  | greaterEqual => exact ⟨_, ['>', '='], .pair rfl, rfl⟩
  | before => exact ⟨_, _, .keyword (w := "isBefore") rfl, rfl⟩
  | after => exact ⟨_, _, .keyword (w := "isAfter") rfl, rfl⟩
  | shiftLeft => exact ⟨_, ['<', '<'], .pair rfl, rfl⟩
  | shiftRight => exact ⟨_, ['>', '>'], .pair rfl, rfl⟩
  | or => exact ⟨_, _, .keyword (w := "or") rfl, rfl⟩
  | bitOr => exact ⟨_, ['|'], .single rfl, rfl⟩
  | add => exact ⟨_, ['+'], .single rfl, rfl⟩
  | sub => exact ⟨_, ['-'], .single rfl, rfl⟩
  | xor => exact ⟨_, _, .keyword (w := "xor") rfl, rfl⟩
  | mul => exact ⟨_, ['*'], .single rfl, rfl⟩
  | div => exact ⟨_, ['/'], .single rfl, rfl⟩
  | divFloor => exact ⟨_, ['/', '/'], .pair rfl, rfl⟩
  | divTrunc => exact ⟨_, ['-', '/'], .pair rfl, rfl⟩
  | rem => exact ⟨_, ['%'], .single rfl, rfl⟩
  | and => exact ⟨_, _, .keyword (w := "and") rfl, rfl⟩
  | bitAnd => exact ⟨_, ['&'], .single rfl, rfl⟩
  | power => exact ⟨_, ['*', '*'], .pair rfl, rfl⟩
  | join => exact ⟨_, ['~', '>'], .pair rfl, rfl⟩

theorem spelled_unary (op : UnaryOp) :
    ∃ token s, Spelled token s ∧ UnaryOp.ofToken? token = some (.unary op) := by
  cases op with
  | negate => exact ⟨_, ['-'], .single rfl, rfl⟩
  | plus => exact ⟨_, ['+'], .single rfl, rfl⟩
  | not => exact ⟨_, _, .keyword (w := "not") rfl, rfl⟩
  | complement => exact ⟨_, ['~'], .single rfl, rfl⟩

theorem spelled_transform (t : CaseTransform) :
    ∃ token s, Spelled token s ∧ CaseTransform.ofToken? token = some t := by
  cases t with
  | upperFirst => exact ⟨_, ['^'], .single rfl, rfl⟩
  | upper => exact ⟨_, ['^', '^'], .pair rfl, rfl⟩
  | lowerFirst => exact ⟨_, [','], .single rfl, rfl⟩
  | lower => exact ⟨_, [',', ','], .pair rfl, rfl⟩
  | toggleFirst => exact ⟨_, ['~'], .single rfl, rfl⟩
  | toggle => exact ⟨_, ['~', '~'], .pair rfl, rfl⟩

theorem keyword_kind (kind : Kind) : ∃ s k, Keyword.ofWord? s = some k ∧ Kind.ofKeyword? k = some kind := by
  cases kind with
  | text => exact ⟨"text", _, rfl, rfl⟩
  | number => exact ⟨"number", _, rfl, rfl⟩
  | logic => exact ⟨"logic", _, rfl, rfl⟩
  | date => exact ⟨"date", _, rfl, rfl⟩

theorem canWrite_binary {op : BinaryOp} {a b : Expr} (left : CanWrite allow (op.level.strength + 1) a)
    (right : CanWrite allow (op.level.strength + 2) b) :
    CanWrite allow (op.level.strength + 1) (.binary op a b) := by
  intro i
  obtain ⟨token, s, spelled, operator⟩ := spelled_binary op
  obtain ⟨a', w, sameA, left⟩ := left i
  obtain ⟨b', v, sameB, right⟩ := right (i + w.length + 1 + s.length + 1)
  rw [rung_level] at left
  rw [rung_operand] at right
  refine ⟨.binary op a' b', w ++ ([' '] ++ (s ++ ([' '] ++ v))), ?_, ?_⟩
  · simp only [unplaced, sameA, sameB]
  · rw [rung_level]
    exact .binary left gap_blank spelled operator gap_blank right

theorem canWrite_unary {op : UnaryOp} {e : Expr} (operand : CanWrite allow 6 e) :
    CanWrite allow 6 (.unary op e) := by
  intro i
  obtain ⟨token, s, spelled, operator⟩ := spelled_unary op
  obtain ⟨e', w, same, operand⟩ := operand (i + s.length + 1)
  refine ⟨.unary op e', _, ?_, .unary spelled operator gap_blank operand⟩
  simp only [unplaced, same]

theorem canWrite_convert {kind : Kind} {e : Expr} (operand : CanWrite allow 0 e) :
    CanWrite allow 7 (.convert kind e) := by
  intro i
  obtain ⟨s, k, word, conversion⟩ := keyword_kind kind
  obtain ⟨e', w, same, operand⟩ := operand (i + s.toList.length + 0 + 1 + 0)
  refine ⟨.convert kind e', _, ?_, .convert (s := s) word conversion trivia_nil trivia_nil operand gap_blank⟩
  simp only [unplaced, same]

theorem arguments_written {es : List Expr} (nonempty : es ≠ []) (each : ∀ e ∈ es, CanWrite allow 0 e)
    (i : Nat) :
    ∃ es' w, unplacedAll es' = unplacedAll es ∧ Written True allow (.arguments es') i w := by
  induction es generalizing i with
  | nil => exact absurd rfl nonempty
  | cons e es ih =>
    obtain ⟨e', w, same, first⟩ := each e List.mem_cons_self i
    by_cases last : es = []
    · subst last
      refine ⟨[e'], _, ?_, .lastArgument first gap_blank⟩
      simp only [unplacedAll, same]
    · obtain ⟨es', v, others, rest⟩ :=
        ih last (fun e mem => each e (List.mem_cons_of_mem _ mem)) (i + w.length + 1 + 1 + 1)
      refine ⟨e' :: es', _, ?_, .argument first gap_blank gap_blank rest⟩
      simp only [unplacedAll, same, others]

theorem call_written {es : List Expr} (each : ∀ e ∈ es, CanWrite allow 0 e) (i : Nat) :
    ∃ es' w, unplacedAll es' = unplacedAll es ∧ es'.length = es.length ∧
      Written True allow (.call es') i w := by
  by_cases none : es = []
  · subst none
    exact ⟨[], _, rfl, rfl, .noArguments⟩
  · obtain ⟨es', w, same, written⟩ := arguments_written none each i
    refine ⟨es', w, same, ?_, .someArguments written⟩
    rw [← length_unplacedAll es', same, length_unplacedAll]

theorem canWrite_call {s : String} {position : Nat} {es : List Expr} (name : IsName s)
    (each : ∀ e ∈ es, CanWrite allow 0 e) (allowed : allow s es.length = .ok ()) :
    CanWrite allow 7 (.call s position es) := by
  intro i
  obtain ⟨es', w, same, length, written⟩ := call_written each (i + s.toList.length + 0 + 1 + 0)
  refine ⟨.call s i es', _, ?_, .call name trivia_nil trivia_nil written (by rw [length, allowed])⟩
  simp only [unplaced, same]

theorem slice_written {slice : Option (Slice Expr)} (start : ∀ s ∈ slice, CanWrite allow 4 s.start.part)
    (count : ∀ s ∈ slice, ∀ b ∈ s.count, CanWrite allow 4 b.part) (i : Nat) :
    ∃ slice' w, unplacedSlice slice' = unplacedSlice slice ∧ Written True allow (.slice slice') i w := by
  match slice with
  | none => exact ⟨none, _, rfl, .noSlice⟩
  | some ⟨⟨e, _⟩, none⟩ =>
    obtain ⟨e', w, same, bound⟩ := start _ rfl (i + 1 + 1 + 1)
    refine ⟨_, _, ?_, .start gap_blank gap_blank bound⟩
    simp only [unplacedSlice, same]
  | some ⟨⟨e, _⟩, some ⟨f, _⟩⟩ =>
    obtain ⟨e', w, sameE, first⟩ := start _ rfl (i + 1 + 1 + 1)
    obtain ⟨f', v, sameF, second⟩ := count _ rfl _ rfl (i + 1 + 1 + 1 + w.length + 1 + 1 + 1)
    refine ⟨_, _, ?_, .range gap_blank gap_blank first gap_blank gap_blank second⟩
    simp only [unplacedSlice, sameE, sameF]

theorem transforms_exist (ts : List CaseTransform) : ∃ w, WrittenTransforms ts w := by
  induction ts with
  | nil => exact ⟨_, .nil⟩
  | cons t ts ih =>
    obtain ⟨w, rest⟩ := ih
    obtain ⟨token, s, spelled, suffix⟩ := spelled_transform t
    exact ⟨_, .cons gap_blank spelled suffix rest⟩

theorem length_exists (length : Bool) : ∃ w, WrittenLength length w := by
  cases length with
  | false => exact ⟨_, .no⟩
  | true => exact ⟨_, .yes gap_blank⟩

theorem fallback_written {fallback : Option Expr} (value : ∀ e ∈ fallback, CanWrite allow 0 e) (i : Nat) :
    ∃ fallback' w, unplacedFallback fallback' = unplacedFallback fallback ∧ w.head? ≠ some '#' ∧
      Written True allow (.fallback fallback') i w := by
  cases fallback with
  | none => exact ⟨none, _, rfl, by decide, .noFallback⟩
  | some e =>
    obtain ⟨e', w, same, inner⟩ := value e rfl (i + 1 + 1 + 1)
    refine ⟨some e', _, ?_, ?_, .fallback gap_blank gap_blank inner⟩
    · simp only [unplacedFallback, same]
    · simp

theorem canWrite_reference {r : Reference Expr} (name : IsName r.name)
    (start : ∀ s ∈ r.slice, CanWrite allow 4 s.start.part)
    (count : ∀ s ∈ r.slice, ∀ b ∈ s.count, CanWrite allow 4 b.part)
    (value : ∀ e ∈ r.fallback, CanWrite allow 0 e) : CanWrite allow 7 (.reference r) := by
  intro i
  obtain ⟨slice, w₁, sameSlice, written₁⟩ := slice_written start count (i + 2 + 0 + r.name.toList.length)
  obtain ⟨w₂, written₂⟩ := transforms_exist r.transforms
  obtain ⟨w₃, written₃⟩ := length_exists r.length
  obtain ⟨fallback, w₄, sameFallback, noComment, written₄⟩ :=
    fallback_written value (i + 2 + 0 + r.name.toList.length + w₁.length + w₂.length + w₃.length)
  have behind : (w₄ ++ [' ']).head? ≠ some '#' := by
    cases w₄ with
    | nil => decide
    | cons c w₄ => exact noComment
  have inside := Written.reference (r := ⟨r.name, slice, r.transforms, r.length, fallback⟩) name written₁
    written₂ written₃ written₄ gap_blank fun _ => behind
  refine ⟨_, _, ?_, .braces trivia_nil inside⟩
  simp only [unplaced, sameSlice, sameFallback]

theorem text_exists {follow : Option Char} (ending : IsFollow follow) (cs : List Char) :
    ∃ w, SpelledText follow cs w := by
  induction cs with
  | nil => exact ⟨_, .nil⟩
  | cons c cs ih =>
    obtain ⟨w, rest⟩ := ih
    obtain ⟨v, first⟩ := spelledChar_exists ending c
    exact ⟨_, .cons first rest⟩

theorem yields_digits (n : Nat) (run : Numeral.Run 10 (Nat.toDigits 10 n)) :
    Yields ⟨.none, .decimal (.whole _ run) none⟩ (Decimal.ofInt n) := by
  have normal := Decimal.isNormal_ofInt n
  have unscaled : Literal.unscaled .none (.whole _ run) = (n : Int) := by
    rw [Literal.unscaled, Mantissa.digits, Mantissa.places, List.append_nil, Decimal.spelled_toDigits]
    rfl
  refine ⟨Decimal.fits_none, (Decimal.fitsSigned_64_iff 0).mpr (by decide), ?_⟩
  rw [unscaled]
  exact if_pos ⟨normal.minScale_le, normal.le_maxScale⟩

theorem lookBack_literal {n : Nat} (fits : FitsSigned 64 n) :
    ∃ (l : Literal) (d : Decimal), l.IsPlain ∧ Yields l d ∧ d.toInt64? = some (n : Int) := by
  have run := run_of_isRun (Decimal.isRun_toDigits n)
  exact ⟨_, _, ⟨rfl, _, run, rfl⟩, yields_digits n run, Decimal.toInt64?_ofInt fits⟩

theorem segments_written {follow : Option Char} (ending : IsFollow follow) {ss : List (Segment Expr)} {k : Nat}
    (order : Ordered k ss) (values : ∀ e, Segment.value e ∈ ss → CanWrite allow 0 e) (i : Nat) :
    ∃ ss' w, unplacedSegments ss' = unplacedSegments ss ∧ Written True allow (.segments follow k ss') i w := by
  induction ss generalizing k i with
  | nil =>
    rcases ending with rfl | rfl | rfl
    · exact ⟨[], _, rfl, .stop⟩
    · exact ⟨[], _, rfl, .close (Or.inl rfl)⟩
    · exact ⟨[], _, rfl, .close (Or.inr rfl)⟩
  | cons segment ss ih =>
    have later := fun e mem => values e (List.mem_cons_of_mem segment mem)
    cases segment with
    | text s =>
      obtain ⟨nonempty, alone, order⟩ := order
      obtain ⟨w, spelled⟩ := text_exists ending s.toList
      obtain ⟨ss', v, same, rest⟩ := ih order later (i + w.length)
      refine ⟨.text s :: ss', _, ?_, .text spelled nonempty ?_ rest⟩
      · simp only [unplacedSegments, same]
      · intro t more first
        obtain ⟨more', found⟩ := text_of_unplacedSegments same first
        exact alone t more' found
    | value e =>
      obtain ⟨e', w, sameE, inside⟩ := values e List.mem_cons_self (i + 2 + 0)
      obtain ⟨ss', v, same, rest⟩ := ih (k := k + 1) order later (i + 2 + 0 + w.length + 1 + 1)
      refine ⟨.value e' :: ss', _, ?_, .expression trivia_nil inside gap_blank rest⟩
      simp only [unplacedSegments, same, sameE]
    | lookBack n position =>
      obtain ⟨there, fits, order⟩ := order
      obtain ⟨l, d, plain, value, distance⟩ := lookBack_literal fits
      obtain ⟨ss', v, same, rest⟩ := ih order later (i + 2 + 0 + l.chars.length + 0 + 1)
      refine ⟨.lookBack n i :: ss', '$' :: '[' :: ([] ++ (l.chars ++ ([] ++ (']' :: v)))), ?_, ?_⟩
      · simp only [unplacedSegments, same]
      · exact .lookBack .nil plain value distance there .nil rest

theorem canWrite_template {ss : List (Segment Expr)} (order : Ordered 0 ss)
    (values : ∀ e, Segment.value e ∈ ss → CanWrite allow 0 e) : CanWrite allow 7 (.template ss false) := by
  intro i
  have ending : IsFollow (some '"') := Or.inr (Or.inl rfl)
  obtain ⟨ss', w, same, inside⟩ := segments_written ending order values (i + 1)
  refine ⟨.template ss' false, _, ?_, .string (Or.inl rfl) inside⟩
  simp only [unplaced, same]

theorem canWrite_of_printable {e : Expr} (printable : Printable allow e) : CanWrite allow e.rank e := by
  have weaker : ∀ {e : Expr}, CanWrite allow e.rank e → ∀ k : Fin 8, CanWrite allow k e :=
    fun own k => canWrite_rung own (Nat.le_of_lt_succ k.isLt)
  induction printable with
  | number normal sign => exact canWrite_number normal sign
  | logic b => exact fun _ => ⟨_, _, rfl, .logic b⟩
  | template order _ ih => exact canWrite_template order fun e mem => weaker (ih e mem) 0
  | reference name _ _ _ start count fallback =>
    exact canWrite_reference name (fun s mem => weaker (start s mem) 4)
      (fun s mem b inside => weaker (count s mem b inside) 4) fun e mem => weaker (fallback e mem) 0
  | defined name => exact canWrite_defined name
  | conditional _ _ _ condition yes no =>
    exact canWrite_conditional (weaker condition 1) (weaker yes 0) (weaker no 0)
  | @binary op _ _ _ _ left right =>
    have bound := strength_le op.level
    exact canWrite_binary (canWrite_rung left (by omega)) (canWrite_rung right (by omega))
  | unary _ operand => exact canWrite_unary (weaker operand 6)
  | convert _ operand => exact canWrite_convert (weaker operand 0)
  | call name _ allowed each => exact canWrite_call name (fun e mem => weaker (each e mem) 0) allowed

end TemplateExpr
