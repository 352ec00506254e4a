import TemplateExpr.Proofs.Expr.Tokens
/-!
How expressions are written, as a relation between syntax and characters that has no parser in it. What is
written begins with its first token and ends with its last one; an expression that holds places holds those
where the tokens in question begin. Between two tokens there are white space and comments, behind an opener
there may be none. Operators of a level join operands of the next stronger one from the left, and whatever is
weaker than its place asks for takes parentheses; whether others may is a parameter.
-/
namespace TemplateExpr

open Token Numeral

structure IsName (s : String) : Prop where
  word : IsWord s.toList
  free : Keyword.ofWord? s = none

/-- A part of a template, with the syntax that it is written for. -/
inductive Phrase where
  | expression (e : Expr)
  | level (l : Level) (e : Expr)
  | unary (e : Expr)
  | primary (e : Expr)
  | call (es : List Expr)
  | arguments (es : List Expr)
  | braced (e : Expr)
  | slice (s : Option (Slice Expr))
  | fallback (e : Option Expr)
  /-- Segments behind so many values, with the quote that ends their template. -/
  | segments (follow : Option Char) (values : Nat) (ss : List (Segment Expr))

def Level.strength : Level → Nat
  | relational => 0
  | shift => 1
  | additive => 2
  | multiplicative => 3
  | power => 4

theorem strength_le (l : Level) : l.strength ≤ 4 := by
  cases l <;> decide

def BinaryOp.level : BinaryOp → Level
  | equal | notEqual | less | greater | lessEqual | greaterEqual | before | after => .relational
  | shiftLeft | shiftRight | or | bitOr => .shift
  | add | sub | xor => .additive
  | mul | div | divFloor | divTrunc | rem | and | bitAnd => .multiplicative
  | power | join => .power

/-- The rung of the ladder from expressions to primary ones that an expression is on. -/
def Expr.rank : Expr → Nat
  | conditional .. => 0
  | binary op .. => op.level.strength + 1
  | unary .. => 6
  | _ => 7

def Phrase.operand (l : Level) (e : Expr) : Phrase :=
  match l.next? with
  | some next => level next e
  | none => unary e

inductive WrittenTransforms : List CaseTransform → List Char → Prop where
  | nil : WrittenTransforms [] []
  | cons {t : CaseTransform} {ts : List CaseTransform} {token : Token} {g s w : List Char} (gap : Gap g)
      (spelled : Spelled token s) (suffix : CaseTransform.ofToken? token = some t)
      (rest : WrittenTransforms ts w) : WrittenTransforms (t :: ts) (g ++ s ++ w)

inductive WrittenLength : Bool → List Char → Prop where
  | no : WrittenLength false []
  | yes {g : List Char} (gap : Gap g) : WrittenLength true (g ++ ['#'])

variable (tight : Prop) (allow : String → Nat → Except Error Unit)

/-- `Written tight allow phrase i w` says that the phrase may be written as `w` where its first character has
the place `i`. If it is tight, parentheses stand only where they have to: an expression goes on to a stronger
rung only from those that it is not on itself. Calls have to be allowed. -/
inductive Written : Phrase → Nat → List Char → Prop where
  | relational {e : Expr} {i : Nat} {w : List Char} (other : tight → e.rank ≠ 0)
      (inner : Written (.level .relational e) i w) : Written (.expression e) i w
  | conditional {c a b : Expr} {i : Nat} {w u v g₁ g₂ g₃ g₄ : List Char}
      (condition : Written (.level .relational c) i w) (gap₁ : Gap g₁) (gap₂ : Gap g₂)
      (yes : Written (.expression a) (i + w.length + g₁.length + 1 + g₂.length) u)
      (gap₃ : Gap g₃) (gap₄ : Gap g₄)
      (no : Written (.expression b)
        (i + w.length + g₁.length + 1 + g₂.length + u.length + g₃.length + 1 + g₄.length) v) :
      Written (.expression (.conditional c a b)) i
        (w ++ (g₁ ++ ('?' :: (g₂ ++ (u ++ (g₃ ++ (':' :: (g₄ ++ v))))))))
  | operand {l : Level} {e : Expr} {i : Nat} {w : List Char} (other : tight → e.rank ≠ l.strength + 1)
      (inner : Written (.operand l e) i w) : Written (.level l e) i w
  | binary {l : Level} {a b : Expr} {op : BinaryOp} {token : Token} {i : Nat} {w s v g₁ g₂ : List Char}
      (left : Written (.level l a) i w) (gap₁ : Gap g₁) (spelled : Spelled token s)
      (operator : l.operator? token = some op) (gap₂ : Gap g₂)
      (right : Written (.operand l b) (i + w.length + g₁.length + s.length + g₂.length) v) :
      Written (.level l (.binary op a b)) i (w ++ (g₁ ++ (s ++ (g₂ ++ v))))
  | plain {e : Expr} {i : Nat} {w : List Char} (other : tight → e.rank ≠ 6)
      (inner : Written (.primary e) i w) : Written (.unary e) i w
  | unary {e : Expr} {apply : Expr → Expr} {token : Token} {i : Nat} {s g w : List Char}
      (spelled : Spelled token s) (operator : UnaryOp.ofToken? token = some apply) (gap : Gap g)
      (inner : Written (.unary e) (i + s.length + g.length) w) :
      Written (.unary (apply e)) i (s ++ (g ++ w))
  | number {l : Literal} {d : Decimal} {i : Nat} (unsigned : l.sign = .none) (value : Yields l d) :
      Written (.primary (.constant (.number d))) i l.chars
  | logic (b : Bool) {i : Nat} :
      Written (.primary (.constant (.logic b))) i (if b then "true" else "false").toList
  | string {ss : List (Segment Expr)} {q : Char} {i : Nat} {w : List Char} (quote : q = '"' ∨ q = '\'')
      (inside : Written (.segments (some q) 0 ss) (i + 1) w) :
      Written (.primary (.template ss false)) i (q :: w)
  | paren {e : Expr} {i : Nat} {g₁ w g₂ : List Char} (weak : tight → e.rank ≠ 7) (trivia : Trivia g₁)
      (inside : Written (.expression e) (i + 1 + g₁.length) w) (gap : Gap g₂) :
      Written (.primary e) i ('(' :: (g₁ ++ (w ++ (g₂ ++ [')']))))
  | braces {e : Expr} {i : Nat} {g w : List Char} (trivia : Trivia g)
      (inside : Written (.braced e) (i + 2 + g.length) w) :
      Written (.primary e) i ('$' :: '\x7b' :: (g ++ w))
  | name {s : String} {i : Nat} (name : IsName s) : Written (.primary (.reference { name := s })) i s.toList
  | call {s : String} {es : List Expr} {i : Nat} {g₁ g₂ w : List Char} (name : IsName s)
      (trivia₁ : Trivia g₁) (trivia₂ : Trivia g₂)
      (inside : Written (.call es) (i + s.toList.length + g₁.length + 1 + g₂.length) w)
      (allowed : allow s es.length = .ok ()) :
      Written (.primary (.call s i es)) i (s.toList ++ (g₁ ++ ('(' :: (g₂ ++ w))))
  | convert {kind : Kind} {k : Keyword} {s : String} {e : Expr} {i : Nat} {g₁ g₂ w g₃ : List Char}
      (word : Keyword.ofWord? s = some k) (conversion : Kind.ofKeyword? k = some kind)
      (trivia₁ : Trivia g₁) (trivia₂ : Trivia g₂)
      (inside : Written (.expression e) (i + s.toList.length + g₁.length + 1 + g₂.length) w)
      (gap : Gap g₃) :
      Written (.primary (.convert kind e)) i
        (s.toList ++ (g₁ ++ ('(' :: (g₂ ++ (w ++ (g₃ ++ [')']))))))
  | noArguments {i : Nat} : Written (.call []) i [')']
  | someArguments {es : List Expr} {i : Nat} {w : List Char} (inner : Written (.arguments es) i w) :
      Written (.call es) i w
  | lastArgument {e : Expr} {i : Nat} {w g : List Char} (inner : Written (.expression e) i w)
      (gap : Gap g) : Written (.arguments [e]) i (w ++ (g ++ [')']))
  | argument {e : Expr} {es : List Expr} {i : Nat} {w g₁ g₂ v : List Char}
      (first : Written (.expression e) i w) (gap₁ : Gap g₁) (gap₂ : Gap g₂)
      (rest : Written (.arguments es) (i + w.length + g₁.length + 1 + g₂.length) v) :
      Written (.arguments (e :: es)) i (w ++ (g₁ ++ (',' :: (g₂ ++ v))))
  | defined {s : String} {i : Nat} {g₁ g₂ : List Char} (name : IsName s) (gap₁ : Gap g₁) (gap₂ : Gap g₂) :
      Written (.braced (.defined s)) i (s.toList ++ (g₁ ++ ('?' :: (g₂ ++ ['\x7d']))))
  | reference {r : Reference Expr} {i : Nat} {w₁ w₂ w₃ w₄ g : List Char} (name : IsName r.name)
      (slice : Written (.slice r.slice) (i + r.name.toList.length) w₁)
      (transforms : WrittenTransforms r.transforms w₂) (length : WrittenLength r.length w₃)
      (fallback : Written (.fallback r.fallback)
        (i + r.name.toList.length + w₁.length + w₂.length + w₃.length) w₄)
      (gap : Gap g) (noComment : r.length = true → (w₄ ++ g).head? ≠ some '#') :
      Written (.braced (.reference r)) i
        (r.name.toList ++ (w₁ ++ (w₂ ++ (w₃ ++ (w₄ ++ (g ++ ['\x7d']))))))
  | noSlice {i : Nat} : Written (.slice none) i []
  | start {e : Expr} {i : Nat} {g₁ g₂ w : List Char} (gap₁ : Gap g₁) (gap₂ : Gap g₂)
      (bound : Written (.level .multiplicative e) (i + g₁.length + 1 + g₂.length) w) :
      Written (.slice (some ⟨⟨e, i + g₁.length + 1 + g₂.length⟩, none⟩)) i (g₁ ++ (':' :: (g₂ ++ w)))
  | range {e f : Expr} {i : Nat} {g₁ g₂ w g₃ g₄ v : List Char} (gap₁ : Gap g₁) (gap₂ : Gap g₂)
      (first : Written (.level .multiplicative e) (i + g₁.length + 1 + g₂.length) w)
      (gap₃ : Gap g₃) (gap₄ : Gap g₄)
      (second : Written (.level .multiplicative f)
        (i + g₁.length + 1 + g₂.length + w.length + g₃.length + 1 + g₄.length) v) :
      Written (.slice (some ⟨⟨e, i + g₁.length + 1 + g₂.length⟩,
        some ⟨f, i + g₁.length + 1 + g₂.length + w.length + g₃.length + 1 + g₄.length⟩⟩)) i
        (g₁ ++ (':' :: (g₂ ++ (w ++ (g₃ ++ (':' :: (g₄ ++ v)))))))
  | noFallback {i : Nat} : Written (.fallback none) i []
  | fallback {e : Expr} {i : Nat} {g₁ g₂ w : List Char} (gap₁ : Gap g₁) (gap₂ : Gap g₂)
      (inner : Written (.expression e) (i + g₁.length + 1 + g₂.length) w) :
      Written (.fallback (some e)) i (g₁ ++ ('-' :: (g₂ ++ w)))
  | text {follow : Option Char} {values i : Nat} {s : String} {ss : List (Segment Expr)} {w v : List Char}
      (spelled : SpelledText follow s.toList w) (nonempty : s ≠ "")
      (alone : ∀ t more, ss ≠ .text t :: more)
      (rest : Written (.segments follow values ss) (i + w.length) v) :
      Written (.segments follow values (.text s :: ss)) i (w ++ v)
  | lookBack {follow : Option Char} {values i n : Nat} {l : Literal} {d : Decimal}
      {ss : List (Segment Expr)} {g₁ g₂ v : List Char} (trivia : Trivia g₁) (plain : l.IsPlain)
      (value : Yields l d) (distance : d.toInt64? = some (n : Int)) (there : 1 ≤ n ∧ n ≤ values)
      (trivia' : Trivia g₂)
      (rest : Written (.segments follow values ss)
        (i + 2 + g₁.length + l.chars.length + g₂.length + 1) v) :
      Written (.segments follow values (.lookBack n i :: ss)) i
        ('$' :: '[' :: (g₁ ++ (l.chars ++ (g₂ ++ (']' :: v)))))
  | braced {follow : Option Char} {values i : Nat} {e : Expr} {ss : List (Segment Expr)}
      {g w v : List Char} (trivia : Trivia g) (inside : Written (.braced e) (i + 2 + g.length) w)
      (rest : Written (.segments follow (values + 1) ss) (i + 2 + g.length + w.length) v) :
      Written (.segments follow values (.value e :: ss)) i ('$' :: '\x7b' :: (g ++ (w ++ v)))
  | expression {follow : Option Char} {values i : Nat} {e : Expr} {ss : List (Segment Expr)}
      {g₁ w g₂ v : List Char} (trivia : Trivia g₁)
      (inside : Written (.expression e) (i + 2 + g₁.length) w) (gap : Gap g₂)
      (rest : Written (.segments follow (values + 1) ss)
        (i + 2 + g₁.length + w.length + g₂.length + 1) v) :
      Written (.segments follow values (.value e :: ss)) i
        ('$' :: '(' :: (g₁ ++ (w ++ (g₂ ++ (')' :: v)))))
  | function {follow : Option Char} {values i : Nat} {s : String} {es : List Expr}
      {ss : List (Segment Expr)} {g₁ g₂ w v : List Char} (name : IsName s) (trivia₁ : Trivia g₁)
      (trivia₂ : Trivia g₂)
      (inside : Written (.call es) (i + 1 + s.toList.length + g₁.length + 1 + g₂.length) w)
      (allowed : allow s es.length = .ok ())
      (rest : Written (.segments follow (values + 1) ss)
        (i + 1 + s.toList.length + g₁.length + 1 + g₂.length + w.length) v) :
      Written (.segments follow values (.value (.call s i es) :: ss)) i
        ('$' :: (s.toList ++ (g₁ ++ ('(' :: (g₂ ++ (w ++ v))))))
  | close {q : Char} {values i : Nat} (quote : q = '"' ∨ q = '\'') :
      Written (.segments (some q) values []) i [q]
  | stop {values i : Nat} : Written (.segments none values []) i []

end TemplateExpr
