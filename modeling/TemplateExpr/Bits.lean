import TemplateExpr.Powers
/-!
Integers as sequences of bits without end, in two's complement: a number below zero has the inverted bits of
the number one less than its magnitude.
-/
namespace TemplateExpr.Bits

def complement (n : Int) : Int := -n - 1

def without (m n : Nat) : Nat := m ^^^ (m &&& n)

def and : Int → Int → Int
  | .ofNat m, .ofNat n => .ofNat (m &&& n)
  | .ofNat m, .negSucc n => .ofNat (without m n)
  | .negSucc m, .ofNat n => .ofNat (without n m)
  | .negSucc m, .negSucc n => .negSucc (m ||| n)

def or : Int → Int → Int
  | .ofNat m, .ofNat n => .ofNat (m ||| n)
  | .ofNat m, .negSucc n => .negSucc (without n m)
  | .negSucc m, .ofNat n => .negSucc (without m n)
  | .negSucc m, .negSucc n => .negSucc (m &&& n)

def xor : Int → Int → Int
  | .ofNat m, .ofNat n => .ofNat (m ^^^ n)
  | .ofNat m, .negSucc n => .negSucc (m ^^^ n)
  | .negSucc m, .ofNat n => .negSucc (m ^^^ n)
  | .negSucc m, .negSucc n => .ofNat (m ^^^ n)

/-- Moves the bits towards the higher ones, or by a negative count towards the lower ones, of which those
below the lowest are lost. -/
def shift (n count : Int) : Int :=
  if 0 ≤ count then if n = 0 then 0 else n * twoPow count.toNat
  else n >>> count.natAbs

end TemplateExpr.Bits
