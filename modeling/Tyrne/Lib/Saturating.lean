import Mathlib.Algebra.Group.Nat.Defs

/-!
# Saturating arithmetic

Unsigned sums and products that stop at the largest number of the width. Where the exact
result fits they are exact.
-/

namespace Tyrne.Lib.Saturating

set_option autoImplicit false

variable {width : Nat}

def saturatingAdd (left right : BitVec width) : BitVec width :=
  BitVec.ofNat width (min (left.toNat + right.toNat) (2 ^ width - 1))

def saturatingMul (left right : BitVec width) : BitVec width :=
  BitVec.ofNat width (min (left.toNat * right.toNat) (2 ^ width - 1))

theorem clamped_value (result : Nat) :
    (BitVec.ofNat width (min result (2 ^ width - 1))).toNat = min result (2 ^ width - 1) := by
  have positive : 0 < 2 ^ width := Nat.two_pow_pos width
  rw [BitVec.toNat_ofNat, Nat.mod_eq_of_lt (by omega)]

variable (left right : BitVec width)

theorem saturating_add_value :
    (saturatingAdd left right).toNat = min (left.toNat + right.toNat) (2 ^ width - 1) :=
  clamped_value _

theorem saturating_mul_value :
    (saturatingMul left right).toNat = min (left.toNat * right.toNat) (2 ^ width - 1) :=
  clamped_value _

variable {left right}

theorem saturating_add_exact (fits : left.toNat + right.toNat < 2 ^ width) :
    (saturatingAdd left right).toNat = left.toNat + right.toNat := by
  rw [saturating_add_value, Nat.min_eq_left (by omega)]

theorem saturating_mul_exact (fits : left.toNat * right.toNat < 2 ^ width) :
    (saturatingMul left right).toNat = left.toNat * right.toNat := by
  rw [saturating_mul_value, Nat.min_eq_left (by omega)]

end Tyrne.Lib.Saturating
