import Mathlib.Algebra.Order.Floor.Div
import Mathlib.GroupTheory.GroupAction.Ring
import Mathlib.Order.GaloisConnection.Basic

/-!
# Converting between two units

`num` of the fine unit make `den` of the coarse one. Counting coarse units in fine ones
rounds down, the way back rounds up; the two are adjoint.
-/

namespace Tyrne.Lib.Rescale

set_option autoImplicit false

/-- `count` coarse units in fine ones, rounded down. -/
def down (num den count : Nat) : Nat := count * num / den

/-- `amount` fine units in coarse ones, rounded up. -/
def up (num den amount : Nat) : Nat := (amount * den) ⌈/⌉ num

section Adjoint

variable {num den : Nat}

theorem up_le_iff (numPos : 0 < num) (amount count : Nat) :
    up num den amount ≤ count ↔ amount * den ≤ count * num := by
  rw [up, ceilDiv_le_iff_le_mul numPos, Nat.mul_comm num count]

theorem le_down_iff (denPos : 0 < den) (amount count : Nat) :
    amount ≤ down num den count ↔ amount * den ≤ count * num := by
  rw [down, Nat.le_div_iff_mul_le denPos]

theorem up_down_connection (numPos : 0 < num) (denPos : 0 < den) :
    GaloisConnection (up num den) (down num den) := by
  intro amount count
  rw [up_le_iff numPos, le_down_iff denPos]

theorem mul_le_up_mul (numPos : 0 < num) (amount : Nat) :
    amount * den ≤ up num den amount * num :=
  (up_le_iff numPos amount _).mp (Nat.le_refl _)

theorem down_strict_mono (denPos : 0 < den) (finer : den ≤ num) :
    StrictMono (down num den) := by
  intro smaller larger less
  have gap : (smaller + 1) * num ≤ larger * num := Nat.mul_le_mul_right num less
  have widened : smaller * num + den ≤ larger * num := by
    rw [Nat.add_mul, Nat.one_mul] at gap
    omega
  calc
    down num den smaller < (smaller * num + den) / den := by
      rw [down, Nat.add_div_right _ denPos]
      exact Nat.lt_succ_self _
    _ ≤ down num den larger := Nat.div_le_div_right widened

theorem up_down (denPos : 0 < den) (finer : den ≤ num) (count : Nat) :
    up num den (down num den count) = count := by
  have numPos : 0 < num := Nat.lt_of_lt_of_le denPos finer
  apply (down_strict_mono denPos finer).injective
  exact (up_down_connection numPos denPos).u_l_u_eq_u count

theorem up_down_loss (numPos : 0 < num) (denPos : 0 < den) (count : Nat) :
    (count - up num den (down num den count)) * num < den := by
  have kept : down num den count * den ≤ up num den (down num den count) * num :=
    mul_le_up_mul numPos _
  have near : count * num < down num den count * den + den := by
    rw [down]
    calc
      count * num < den * (count * num / den + 1) := Nat.lt_mul_div_succ _ denPos
      _ = count * num / den * den + den := by rw [Nat.mul_add, Nat.mul_one, Nat.mul_comm]
  rw [Nat.sub_mul]
  omega

end Adjoint

section Rounding

theorem ceil_div_cases {divisor : Nat} (positive : 0 < divisor) (amount : Nat) :
    amount ⌈/⌉ divisor =
      if 0 < amount % divisor then amount / divisor + 1 else amount / divisor := by
  have parts := Nat.div_add_mod amount divisor
  have room := ceilDiv_le_iff_le_mul positive (b := amount) (c := amount / divisor)
  split_ifs with left
  · apply Nat.le_antisymm
    · rw [ceilDiv_le_iff_le_mul positive]
      exact Nat.le_of_lt (Nat.lt_mul_div_succ amount positive)
    · by_contra short
      have covered := room.mp (by omega)
      omega
  · apply Nat.le_antisymm
    · exact room.mpr (by omega)
    · have floorLeCeil := floorDiv_le_ceilDiv (a := divisor) (b := amount)
      rwa [Nat.floorDiv_eq_div] at floorLeCeil

end Rounding

section Clamped

theorem le_clamped_iff {cap amount : Nat} (fits : amount ≤ cap) (value : Nat) :
    amount ≤ min value cap ↔ amount ≤ value := by
  rw [Nat.le_min]
  exact ⟨And.left, fun below => ⟨below, fits⟩⟩

end Clamped

end Tyrne.Lib.Rescale
