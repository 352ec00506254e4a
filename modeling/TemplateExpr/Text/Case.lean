import TemplateExpr.Text.CaseRanges
/-!
Capital and small forms of text, after Unicode. A form can be longer than the letter. The small form of a
capital sigma depends on its surroundings: it is the final sigma at the end of a word.
-/
namespace TemplateExpr

inductive CaseTransform where
  | upperFirst
  | upper
  | lowerFirst
  | lower
  | toggleFirst
  | toggle
  deriving DecidableEq

def inRanges (ranges : List (Nat × Nat)) (c : Char) : Bool :=
  (ranges.find? fun (_, last) => c.toNat ≤ last).any fun (first, _) => first ≤ c.toNat

namespace CaseRun

def form? (run : CaseRun) (c : Char) : Option Char :=
  if run.first ≤ c.toNat && c.toNat ≤ run.last && (c.toNat - run.first) % run.stride == 0 then
    some (Char.ofNat (c.toNat + run.shift).toNat)
  else none

end CaseRun

def caseForm (long : List (Nat × List Nat)) (runs : List CaseRun) (c : Char) : List Char :=
  match long.find? (·.1 == c.toNat) with
  | some (_, codes) => codes.map Char.ofNat
  | none => [(runs.findSome? (·.form? c)).getD c]

def upperChar (c : Char) : List Char := caseForm longCapitals CaseRun.capitals c

def lowerChar (c : Char) : List Char := caseForm longSmalls CaseRun.smalls c

/-- A character with a small form that is no title letter. -/
def isCapital (c : Char) : Bool := lowerChar c != [c] && !inRanges titleRanges c

/-- Whether a cased letter comes first, not counting what is passed over. -/
def startsCased (cs : List Char) : Bool :=
  ((cs.dropWhile (inRanges caseIgnorableRanges)).head?).any (inRanges casedRanges)

/-- The small form of a text, after the characters of `before`, the last of them first. -/
def lowerAfter (before : List Char) : List Char → List Char
  | [] => []
  | c :: rest =>
    let form :=
      if c = 'Σ' then [if startsCased before && !startsCased rest then 'ς' else 'σ']
      else lowerChar c
    form ++ lowerAfter (c :: before) rest

def lowerChars (cs : List Char) : List Char := lowerAfter [] cs

def upperChars (cs : List Char) : List Char := cs.flatMap upperChar

def toggleChar (c : Char) : Char :=
  match if isCapital c then lowerChar c else upperChar c with
  | [flipped] => flipped
  | _ => c

namespace CaseTransform

def mapFirst (f : Char → List Char) : List Char → List Char
  | [] => []
  | c :: rest => f c ++ rest

def applyChars : CaseTransform → List Char → List Char
  | upper => upperChars
  | lower => lowerChars
  | toggle => List.map toggleChar
  | upperFirst => mapFirst upperChar
  | lowerFirst => mapFirst lowerChar
  | toggleFirst => mapFirst fun c => [toggleChar c]

def apply (transform : CaseTransform) (text : String) : String :=
  String.ofList (transform.applyChars text.toList)

end CaseTransform

end TemplateExpr
