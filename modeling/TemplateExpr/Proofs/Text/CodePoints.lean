import Mathlib.Data.String.Basic
import Mathlib.Data.UInt
import Mathlib.Order.Defs.LinearOrder
import Mathlib.Tactic.SplitIfs
/-!
Texts are ordered by their code points, and in the same way by their bytes in UTF-8: of two characters the
greater one has the greater encoding, whatever follows.
-/
namespace TemplateExpr

def codePoints (text : String) : List Nat := text.toList.map Char.toNat

def utf8 (text : String) : List UInt8 := text.toList.flatMap String.utf8EncodeChar

theorem map_toNat_lt_iff (xs ys : List Char) : xs.map Char.toNat < ys.map Char.toNat ↔ xs < ys := by
  induction xs generalizing ys with
  | nil => cases ys <;> simp
  | cons x xs ih =>
    cases ys with
    | nil => simp
    | cons y ys =>
      have first : x.toNat < y.toNat ↔ x < y := Iff.rfl
      simp only [List.map_cons, List.cons_lt_cons_iff, ih, first, Char.toNat_inj]

theorem codePoints_lt_iff (x y : String) : codePoints x < codePoints y ↔ x < y := by
  rw [codePoints, codePoints, map_toNat_lt_iff, String.lt_iff_toList_lt]

theorem byte_lt_iff {m n : Nat} (hm : m < 256) (hn : n < 256) : UInt8.ofNat m < UInt8.ofNat n ↔ m < n := by
  rw [UInt8.lt_iff_toNat_lt, UInt8.toNat_ofNat', UInt8.toNat_ofNat']
  omega

theorem byte_eq_iff {m n : Nat} (hm : m < 256) (hn : n < 256) : UInt8.ofNat m = UInt8.ofNat n ↔ m = n := by
  rw [← UInt8.toNat_inj, UInt8.toNat_ofNat', UInt8.toNat_ofNat']
  omega

theorem utf8EncodeChar_append_lt {c d : Char} (less : c < d) (xs ys : List UInt8) :
    String.utf8EncodeChar c ++ xs < String.utf8EncodeChar d ++ ys := by
  have order : c.val.toNat < d.val.toNat := less
  have bound : d.val.toNat < 0x110000 := by
    have valid := d.valid
    simp only [UInt32.isValidChar, Nat.isValidChar] at valid
    omega
  have second (n : Nat) : n / 4096 = n / 64 / 64 := by omega
  have third (n : Nat) : n / 262144 = n / 64 / 64 / 64 := by omega
  simp only [String.utf8EncodeChar, second, third]
  -- for each pair of lengths the first bytes that differ are digits to base 64 of the two codes
  split_ifs <;>
    simp (disch := omega) only [List.cons_append, List.nil_append, List.cons_lt_cons_iff, byte_lt_iff,
      byte_eq_iff] <;>
    omega

theorem append_lt_append_iff (ws xs ys : List UInt8) : ws ++ xs < ws ++ ys ↔ xs < ys := by
  induction ws with
  | nil => simp
  | cons w ws ih => simp [ih]

theorem flatMap_utf8EncodeChar_lt {xs ys : List Char} (less : xs < ys) :
    xs.flatMap String.utf8EncodeChar < ys.flatMap String.utf8EncodeChar := by
  induction xs generalizing ys with
  | nil =>
    cases ys with
    | nil => simp at less
    | cons y ys =>
      cases encoded : String.utf8EncodeChar y with
      | nil => exact absurd encoded String.utf8EncodeChar_ne_nil
      | cons => simp [encoded]
  | cons x xs ih =>
    cases ys with
    | nil => simp at less
    | cons y ys =>
      rw [List.flatMap_cons, List.flatMap_cons]
      rcases List.cons_lt_cons_iff.mp less with first | ⟨rfl, rest⟩
      · exact utf8EncodeChar_append_lt first _ _
      · exact (append_lt_append_iff _ _ _).mpr (ih rest)

theorem utf8_lt_iff (x y : String) : utf8 x < utf8 y ↔ x < y := by
  rw [String.lt_iff_toList_lt]
  constructor
  · intro less
    rcases lt_trichotomy x.toList y.toList with first | same | last
    · exact first
    · rw [utf8, utf8, same] at less
      exact absurd less (List.lt_irrefl _)
    · exact absurd less (List.lt_asymm (flatMap_utf8EncodeChar_lt last))
  · exact flatMap_utf8EncodeChar_lt

end TemplateExpr
