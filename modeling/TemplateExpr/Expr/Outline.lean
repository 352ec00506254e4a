import TemplateExpr.Expr.Basic
/-!
The outline of a syntax tree: one line in which every node is a parenthesis with the node's name first.
Constant text is quoted; everything else is written as it is.
-/
namespace TemplateExpr

def BinaryOp.outline : BinaryOp → String
  | equal => "Eq"
  | notEqual => "Ne"
  | less => "Lt"
  | greater => "Gt"
  | lessEqual => "Le"
  | greaterEqual => "Ge"
  | before => "Before"
  | after => "After"
  | shiftLeft => "Shl"
  | shiftRight => "Shr"
  | or => "Or"
  | bitOr => "BitOr"
  | add => "Add"
  | sub => "Sub"
  | xor => "Xor"
  | mul => "Mul"
  | div => "Div"
  | divFloor => "DivFloor"
  | divTrunc => "DivTrunc"
  | rem => "Rem"
  | and => "And"
  | bitAnd => "BitAnd"
  | power => "Power"
  | join => "Concat"

def UnaryOp.outline : UnaryOp → String
  | negate => "Negate"
  | plus => "Plus"
  | not => "Not"
  | complement => "Complement"

def CaseTransform.outline : CaseTransform → String
  | upperFirst => "UpperFirst"
  | upper => "Upper"
  | lowerFirst => "LowerFirst"
  | lower => "Lower"
  | toggleFirst => "ToggleFirst"
  | toggle => "Toggle"

def quotedChar (c : Char) : List Char :=
  match c with
  | '"' => ['\\', '"']
  | '\\' => ['\\', '\\']
  | '\x08' => ['\\', 'b']
  | '\x0c' => ['\\', 'f']
  | '\n' => ['\\', 'n']
  | '\r' => ['\\', 'r']
  | '\t' => ['\\', 't']
  | _ =>
    if c.toNat < 0x20 then
      let digits := Nat.toDigits 16 c.toNat
      ['\\', 'u'] ++ List.replicate (4 - digits.length) '0' ++ digits
    else [c]

def quoted (text : String) : String :=
  String.ofList ('"' :: text.toList.flatMap quotedChar ++ ['"'])

namespace Expr

def node (parts : List String) : String := "(" ++ " ".intercalate parts ++ ")"

mutual

def outline : Expr → String
  | constant (.text s) => quoted s
  | constant v => v.asText
  | template segments typed =>
    node <| (if typed then "tpl" else "str") :: outlineSegments segments
  | reference ⟨name, slice, transforms, length, fallback⟩ =>
    node <| ["var", name] ++ outlineSlice slice ++ transforms.map CaseTransform.outline ++
      (if length then ["#"] else []) ++ outlineFallback fallback
  | defined name => node ["defined", name]
  | conditional c a b => node ["?", outline c, outline a, outline b]
  | binary op l r => node [op.outline, outline l, outline r]
  | unary op e => node [op.outline, outline e]
  | convert kind e => node ["to" ++ kind.name, outline e]
  | call name position arguments =>
    node <| ["call", s!"{name}@{position}"] ++ outlineAll arguments

def outlineSegments : List (Segment Expr) → List String
  | [] => []
  | .text s :: rest => quoted s :: outlineSegments rest
  | .value e :: rest => outline e :: outlineSegments rest
  | .lookBack distance position :: rest =>
    s!"(back {distance} @{position})" :: outlineSegments rest

def outlineSlice : Option (Slice Expr) → List String
  | none => []
  | some ⟨⟨start, position⟩, none⟩ => [s!":{outline start}@{position}"]
  | some ⟨⟨start, position⟩, some ⟨count, countPosition⟩⟩ =>
    [s!":{outline start}@{position}", s!":{outline count}@{countPosition}"]

def outlineFallback : Option Expr → List String
  | none => []
  | some e => ["-" ++ outline e]

def outlineAll : List Expr → List String
  | [] => []
  | e :: rest => outline e :: outlineAll rest

end

end Expr

end TemplateExpr
