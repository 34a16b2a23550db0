import Mathlib.Algebra.Ring.Nat
import Mathlib.Data.List.Basic

namespace ServiceRuntime
namespace Foundation

/-!
# Numbers as bytes

Fixed-width little-endian words, as `memcpy` of an integer writes and reads
them.  Writing truncates to the width, so reading back is reduction modulo
`256 ^ width`.
-/

/-- The `width` low bytes of a number, least significant first. -/
def littleEndian : Nat -> Nat -> List UInt8
  | 0, _ => []
  | width + 1, number => UInt8.ofNat number :: littleEndian width (number / 256)

/-- The number whose bytes these are, least significant first. -/
def ofLittleEndian : List UInt8 -> Nat
  | [] => 0
  | byte :: rest => byte.toNat + 256 * ofLittleEndian rest

@[simp] theorem littleEndian_length (width number : Nat) :
    (littleEndian width number).length = width := by
  induction width generalizing number with
  | zero => rfl
  | succ width inductionHypothesis =>
      simp only [littleEndian, List.length_cons, inductionHypothesis]

theorem ofLittleEndian_littleEndian (width number : Nat) :
    ofLittleEndian (littleEndian width number) = number % 256 ^ width := by
  induction width generalizing number with
  | zero => simp only [littleEndian, ofLittleEndian, pow_zero, Nat.mod_one]
  | succ width inductionHypothesis =>
      have byte : (UInt8.ofNat number).toNat = number % 256 := by
        simp only [UInt8.toNat_ofNat']
      rw [littleEndian, ofLittleEndian, inductionHypothesis, byte, Nat.pow_succ', Nat.mod_mul]

/-- A word that fits its width survives the round trip. -/
theorem ofLittleEndian_of_lt {width number : Nat} (fits : number < 256 ^ width) :
    ofLittleEndian (littleEndian width number) = number := by
  rw [ofLittleEndian_littleEndian, Nat.mod_eq_of_lt fits]

theorem ofLittleEndian_lt (bytes : List UInt8) : ofLittleEndian bytes < 256 ^ bytes.length := by
  induction bytes with
  | nil => exact Nat.one_pos
  | cons byte rest inductionHypothesis =>
      have small : byte.toNat < 256 := byte.toNat_lt
      rw [ofLittleEndian, List.length_cons, Nat.pow_succ]
      omega

end Foundation
end ServiceRuntime
