import Tyrne.Lib.Rescale

/-!
# Ticks and nanoseconds

`hal/src/timer.rs`: the conversions between a counter's ticks and nanoseconds. The
operators on `u128` and `u64` panic where the compiler's overflow checks do, so that a
conversion that returns has not overflowed.
-/

namespace Tyrne.Timer

open Tyrne.Lib.Rescale

set_option autoImplicit false

inductive Panic where
  | assertion (message : String)
  | overflow
  | divideByZero
  deriving DecidableEq, Repr

abbrev U128 : Type := BitVec 128

namespace U128

def ofU64 (value : UInt64) : U128 := BitVec.ofNat 128 value.toNat

def toU64 (value : U128) : UInt64 := UInt64.ofNat value.toNat

def mul (left right : U128) : Except Panic U128 :=
  if left.toNat * right.toNat < 2 ^ 128 then .ok (left * right) else .error .overflow

def add (left right : U128) : Except Panic U128 :=
  if left.toNat + right.toNat < 2 ^ 128 then .ok (left + right) else .error .overflow

def div (left right : U128) : Except Panic U128 :=
  if right = 0 then .error .divideByZero else .ok (left / right)

def divCeil (left right : U128) : Except Panic U128 := do
  let quotient ← div left right
  if 0 < left % right then add quotient 1 else .ok quotient

end U128

def u64Max : UInt64 := UInt64.ofNat (2 ^ 64 - 1)

def nanosPerSecond : UInt64 := 1000000000

def ticksToNs (count frequencyHz : UInt64) : Except Panic UInt64 := do
  if frequencyHz = 0 then
    throw (.assertion "ticks_to_ns: frequency_hz must be > 0 (BSP must validate CNTFRQ_EL0 / equivalent at boot)")
  let intermediate ← U128.mul (U128.ofU64 count) (U128.ofU64 nanosPerSecond)
  let ns ← U128.div intermediate (U128.ofU64 frequencyHz)
  if U128.ofU64 u64Max < ns then return u64Max else return U128.toU64 ns

def resolutionNsForFreq (frequencyHz : UInt64) : Except Panic UInt64 := do
  if frequencyHz = 0 then
    throw (.assertion "resolution_ns_for_freq: frequency_hz must be > 0 (BSP must validate CNTFRQ_EL0 / equivalent at boot)")
  if nanosPerSecond.toNat + (frequencyHz / 2).toNat < 2 ^ 64 then
    let raw := (nanosPerSecond + frequencyHz / 2) / frequencyHz
    if raw = 0 then return 1 else return raw
  else
    throw .overflow

def nsToTicks (ns frequencyHz : UInt64) : Except Panic UInt64 := do
  if frequencyHz = 0 then
    throw (.assertion "ns_to_ticks: frequency_hz must be > 0 (BSP must validate CNTFRQ_EL0 / equivalent at boot)")
  let intermediate ← U128.mul (U128.ofU64 ns) (U128.ofU64 frequencyHz)
  let nanos := U128.ofU64 nanosPerSecond
  let ticks ← U128.divCeil intermediate nanos
  if U128.ofU64 u64Max < ticks then return u64Max else return U128.toU64 ticks

/-! ## What the operators compute -/

theorem returned_bind {Value Other : Type} (value : Value)
    (next : Value → Except Panic Other) : (Except.ok value >>= next) = next value := rfl

theorem u64_max_value : u64Max.toNat = 2 ^ 64 - 1 := by decide

theorem nanos_per_second_value : nanosPerSecond.toNat = 10 ^ 9 := by decide

@[simp] theorem U128.of_u64_value (value : UInt64) : (U128.ofU64 value).toNat = value.toNat := by
  have small := value.toNat_lt
  simp only [U128.ofU64, BitVec.toNat_ofNat]
  exact Nat.mod_eq_of_lt (by omega)

theorem U128.mul_value {left right : U128} (fits : left.toNat * right.toNat < 2 ^ 128) :
    ∃ product, U128.mul left right = .ok product ∧
      product.toNat = left.toNat * right.toNat := by
  refine ⟨left * right, by rw [U128.mul, if_pos fits], ?_⟩
  rw [BitVec.toNat_mul, Nat.mod_eq_of_lt fits]

theorem U128.div_value (left : U128) {right : U128} (nonzero : 0 < right.toNat) :
    ∃ quotient, U128.div left right = .ok quotient ∧
      quotient.toNat = left.toNat / right.toNat := by
  have differs : right ≠ 0 := by
    rintro rfl
    exact absurd nonzero (by decide)
  exact ⟨left / right, by rw [U128.div, if_neg differs], BitVec.toNat_udiv⟩

theorem U128.div_ceil_value (left : U128) {right : U128} (several : 1 < right.toNat) :
    ∃ quotient, U128.divCeil left right = .ok quotient ∧
      quotient.toNat = left.toNat ⌈/⌉ right.toNat := by
  obtain ⟨quotient, divided, value⟩ := U128.div_value left (Nat.lt_of_succ_lt several)
  have bound : left.toNat / right.toNat < 2 ^ 127 := by
    have small := left.isLt
    apply Nat.div_lt_of_lt_mul
    calc
      left.toNat < 2 * 2 ^ 127 := by omega
      _ ≤ right.toNat * 2 ^ 127 := Nat.mul_le_mul_right _ several
  have remainder : 0 < left % right ↔ 0 < left.toNat % right.toNat := by
    rw [BitVec.lt_def, BitVec.toNat_umod]
    rfl
  rw [U128.divCeil, divided, ceil_div_cases (Nat.lt_of_succ_lt several)]
  by_cases leftOver : 0 < left.toNat % right.toNat
  · have fits : quotient.toNat + (1 : U128).toNat < 2 ^ 128 := by
      rw [value]
      exact Nat.lt_of_lt_of_le (Nat.add_lt_add_right bound 1) (by decide)
    refine ⟨quotient + 1, ?_, ?_⟩
    · exact (if_pos (remainder.mpr leftOver)).trans (if_pos fits)
    · rw [BitVec.toNat_add, Nat.mod_eq_of_lt fits, value, if_pos leftOver]
      rfl
  · refine ⟨quotient, if_neg (mt remainder.mp leftOver), ?_⟩
    rw [value, if_neg leftOver]

/-- The cast at the end of both conversions saturates. -/
theorem saturated_value (wide : U128) :
    (if U128.ofU64 u64Max < wide then u64Max else U128.toU64 wide).toNat =
      min wide.toNat (2 ^ 64 - 1) := by
  have above : U128.ofU64 u64Max < wide ↔ 2 ^ 64 - 1 < wide.toNat := by
    rw [BitVec.lt_def, U128.of_u64_value, u64_max_value]
  split_ifs with large
  · rw [u64_max_value]
    exact (Nat.min_eq_right (Nat.le_of_lt (above.mp large))).symm
  · have small : wide.toNat ≤ 2 ^ 64 - 1 := Nat.le_of_not_lt (mt above.mpr large)
    rw [Nat.min_eq_left small, U128.toU64]
    apply UInt64.toNat_ofNat_of_lt'
    rw [UInt64.size]
    omega

theorem product_fits (left right : UInt64) : left.toNat * right.toNat < 2 ^ 128 :=
  calc
    left.toNat * right.toNat < 2 ^ 64 * 2 ^ 64 :=
      Nat.mul_lt_mul'' left.toNat_lt right.toNat_lt
    _ = 2 ^ 128 := by decide

/-! ## What the conversions return -/

section Conversions

variable {frequencyHz : UInt64}

theorem frequency_nonzero (positive : 0 < frequencyHz) : frequencyHz ≠ 0 := by
  rintro rfl
  exact absurd positive (by decide)

theorem ticks_to_ns_value (positive : 0 < frequencyHz) (count : UInt64) :
    ∃ ns, ticksToNs count frequencyHz = .ok ns ∧
      ns.toNat = min (down (10 ^ 9) frequencyHz.toNat count.toNat) (2 ^ 64 - 1) := by
  obtain ⟨intermediate, multiplied, product⟩ := @U128.mul_value (U128.ofU64 count)
    (U128.ofU64 nanosPerSecond) (by simpa using product_fits count nanosPerSecond)
  obtain ⟨ns, divided, quotient⟩ := @U128.div_value intermediate
    (U128.ofU64 frequencyHz) (by simpa using UInt64.lt_iff_toNat_lt.mp positive)
  refine ⟨_, ?_, saturated_value ns |>.trans ?_⟩
  · simp only [ticksToNs, if_neg (frequency_nonzero positive), multiplied, divided, returned_bind,
      apply_ite Except.ok, pure, Except.pure]
  · rw [quotient, product]
    simp only [U128.of_u64_value, nanos_per_second_value, down]

theorem ns_to_ticks_value (positive : 0 < frequencyHz) (ns : UInt64) :
    ∃ ticks, nsToTicks ns frequencyHz = .ok ticks ∧
      ticks.toNat = min (up (10 ^ 9) frequencyHz.toNat ns.toNat) (2 ^ 64 - 1) := by
  obtain ⟨intermediate, multiplied, product⟩ := @U128.mul_value (U128.ofU64 ns)
    (U128.ofU64 frequencyHz) (by simpa using product_fits ns frequencyHz)
  obtain ⟨ticks, divided, quotient⟩ := @U128.div_ceil_value intermediate
    (U128.ofU64 nanosPerSecond) (by simp [nanos_per_second_value])
  refine ⟨_, ?_, saturated_value ticks |>.trans ?_⟩
  · simp only [nsToTicks, if_neg (frequency_nonzero positive), multiplied, divided, returned_bind,
      apply_ite Except.ok, pure, Except.pure]
  · rw [quotient, product]
    simp only [U128.of_u64_value, nanos_per_second_value, up]

/-- Ticks rounded up and nanoseconds rounded down, before the casts. -/
theorem frequency_connection (positive : 0 < frequencyHz) :
    GaloisConnection (up (10 ^ 9) frequencyHz.toNat) (down (10 ^ 9) frequencyHz.toNat) :=
  up_down_connection (by decide) (UInt64.lt_iff_toNat_lt.mp positive)

theorem ticks_to_ns_mono (positive : 0 < frequencyHz) {earlier later : UInt64}
    (ordered : earlier ≤ later) :
    ∃ first second, ticksToNs earlier frequencyHz = .ok first ∧
      ticksToNs later frequencyHz = .ok second ∧ first ≤ second := by
  obtain ⟨first, firstReturned, firstValue⟩ := ticks_to_ns_value positive earlier
  obtain ⟨second, secondReturned, secondValue⟩ := ticks_to_ns_value positive later
  refine ⟨first, second, firstReturned, secondReturned, UInt64.le_iff_toNat_le.mpr ?_⟩
  rw [firstValue, secondValue]
  have sorted := UInt64.le_iff_toNat_le.mp ordered
  exact min_le_min_right _ ((frequency_connection positive).monotone_u sorted)

theorem ns_to_ticks_mono (positive : 0 < frequencyHz) {earlier later : UInt64}
    (ordered : earlier ≤ later) :
    ∃ first second, nsToTicks earlier frequencyHz = .ok first ∧
      nsToTicks later frequencyHz = .ok second ∧ first ≤ second := by
  obtain ⟨first, firstReturned, firstValue⟩ := ns_to_ticks_value positive earlier
  obtain ⟨second, secondReturned, secondValue⟩ := ns_to_ticks_value positive later
  refine ⟨first, second, firstReturned, secondReturned, UInt64.le_iff_toNat_le.mpr ?_⟩
  rw [firstValue, secondValue]
  have sorted := UInt64.le_iff_toNat_le.mp ordered
  exact min_le_min_right _ ((frequency_connection positive).monotone_l sorted)

theorem ticks_fit (slow : frequencyHz.toNat ≤ 10 ^ 9) (ns : UInt64) :
    (ns.toNat * frequencyHz.toNat) ⌈/⌉ 10 ^ 9 ≤ u64Max.toNat := by
  have small := ns.toNat_lt
  rw [ceilDiv_le_iff_le_mul (by decide), u64_max_value]
  calc
    ns.toNat * frequencyHz.toNat ≤ ns.toNat * 10 ^ 9 := Nat.mul_le_mul_left _ slow
    _ ≤ (2 ^ 64 - 1) * 10 ^ 9 := Nat.mul_le_mul_right _ (by omega)
    _ = 10 ^ 9 * (2 ^ 64 - 1) := Nat.mul_comm _ _

/-- The two conversions are adjoint wherever the ticks do not saturate. -/
theorem conversions_adjoint (positive : 0 < frequencyHz) {ns : UInt64}
    (fits : (ns.toNat * frequencyHz.toNat) ⌈/⌉ 10 ^ 9 ≤ u64Max.toNat) (count : UInt64) :
    ∃ ticks time, nsToTicks ns frequencyHz = .ok ticks ∧
      ticksToNs count frequencyHz = .ok time ∧ (ticks ≤ count ↔ ns ≤ time) := by
  obtain ⟨ticks, ticksReturned, ticksValue⟩ := ns_to_ticks_value positive ns
  obtain ⟨time, timeReturned, timeValue⟩ := ticks_to_ns_value positive count
  have exactTicks : ticks.toNat = up (10 ^ 9) frequencyHz.toNat ns.toNat := by
    rw [ticksValue]
    exact Nat.min_eq_left (by rwa [u64_max_value] at fits)
  have nsFits : ns.toNat ≤ 2 ^ 64 - 1 := Nat.le_of_lt_succ ns.toNat_lt
  refine ⟨ticks, time, ticksReturned, timeReturned, ?_⟩
  rw [UInt64.le_iff_toNat_le, UInt64.le_iff_toNat_le, exactTicks, timeValue,
    le_clamped_iff nsFits]
  exact frequency_connection positive _ _

/-- To nanoseconds and back: nothing is lost up to one tick a nanosecond, and less than a
nanosecond's worth of ticks above it. -/
theorem round_trip (positive : 0 < frequencyHz) (count : UInt64) :
    (frequencyHz.toNat ≤ 10 ^ 9 →
      count.toNat * 10 ^ 9 / frequencyHz.toNat ≤ u64Max.toNat →
      (do nsToTicks (← ticksToNs count frequencyHz) frequencyHz) = .ok count) ∧
    (10 ^ 9 < frequencyHz.toNat →
      ∃ ticks, (do nsToTicks (← ticksToNs count frequencyHz) frequencyHz) = .ok ticks ∧
        ticks ≤ count ∧ (count.toNat - ticks.toNat) * 10 ^ 9 < frequencyHz.toNat) := by
  have frequencyPos : 0 < frequencyHz.toNat := UInt64.lt_iff_toNat_lt.mp positive
  have connection := frequency_connection positive
  obtain ⟨time, timeReturned, timeValue⟩ := ticks_to_ns_value positive count
  obtain ⟨ticks, ticksReturned, ticksValue⟩ := ns_to_ticks_value positive time
  have trip : (do nsToTicks (← ticksToNs count frequencyHz) frequencyHz) = .ok ticks := by
    rw [timeReturned, returned_bind, ticksReturned]
  have countFits : count.toNat ≤ 2 ^ 64 - 1 := Nat.le_of_lt_succ count.toNat_lt
  -- Unless the time saturates, the way back stays below the count and so does not either.
  have unclamped (fits : down (10 ^ 9) frequencyHz.toNat count.toNat ≤ 2 ^ 64 - 1) :
      ticks.toNat =
        up (10 ^ 9) frequencyHz.toNat (down (10 ^ 9) frequencyHz.toNat count.toNat) := by
    have below := connection.l_u_le count.toNat
    rw [Nat.min_eq_left fits] at timeValue
    rw [ticksValue, timeValue]
    exact Nat.min_eq_left (Nat.le_trans below countFits)
  constructor
  · intro slow fits
    rw [trip]
    congr
    apply UInt64.toNat_inj.mp
    rw [unclamped (by rwa [u64_max_value] at fits), up_down frequencyPos slow]
  · intro fast
    have fits : down (10 ^ 9) frequencyHz.toNat count.toNat ≤ 2 ^ 64 - 1 := by
      apply Nat.le_trans _ countFits
      exact Nat.div_le_of_le_mul (by
        rw [Nat.mul_comm]
        exact Nat.mul_le_mul_right _ (Nat.le_of_lt fast))
    have value := unclamped fits
    refine ⟨ticks, trip, UInt64.le_iff_toNat_le.mpr ?_, ?_⟩
    · rw [value]
      exact connection.l_u_le count.toNat
    · rw [value]
      exact up_down_loss (by decide) frequencyPos count.toNat

/-- A counter whose period is no whole number of nanoseconds, and one faster than a tick a
nanosecond. -/
theorem round_trip_nineteen_megahertz :
    (do nsToTicks (← ticksToNs 1234567 19200000) 19200000) = .ok 1234567 ∧
    ∃ ticks, (do nsToTicks (← ticksToNs 7 3000000000) 3000000000) = .ok ticks ∧
      ticks ≤ 7 ∧ (7 - ticks.toNat) * 10 ^ 9 < 3000000000 :=
  ⟨(@round_trip 19200000 (by decide) 1234567).1 (by decide) (by decide),
    (@round_trip 3000000000 (by decide) 7).2 (by decide)⟩

end Conversions

/-! ## The resolution -/

/-- The resolution is the period of the counter to the nearest nanosecond, and at least one. -/
theorem resolution_returns {frequencyHz : UInt64} (positive : 0 < frequencyHz) :
    ∃ resolution, resolutionNsForFreq frequencyHz = .ok resolution ∧
      resolution.toNat = max 1 ((10 ^ 9 + frequencyHz.toNat / 2) / frequencyHz.toNat) := by
  have half : (frequencyHz / 2).toNat = frequencyHz.toNat / 2 := UInt64.toNat_div _ _
  have fits : nanosPerSecond.toNat + (frequencyHz / 2).toNat < 2 ^ 64 := by
    have small := frequencyHz.toNat_lt
    rw [half, nanos_per_second_value]
    omega
  have value : ((nanosPerSecond + frequencyHz / 2) / frequencyHz).toNat =
      (10 ^ 9 + frequencyHz.toNat / 2) / frequencyHz.toNat := by
    rw [UInt64.toNat_div, UInt64.toNat_add, Nat.mod_eq_of_lt fits, half, nanos_per_second_value]
  have returned : resolutionNsForFreq frequencyHz =
      if (nanosPerSecond + frequencyHz / 2) / frequencyHz = 0 then .ok 1
      else .ok ((nanosPerSecond + frequencyHz / 2) / frequencyHz) := by
    simp only [resolutionNsForFreq, if_neg (frequency_nonzero positive), if_pos fits]
    rfl
  rw [returned, ← value]
  split_ifs with none
  · rw [none]
    exact ⟨1, rfl, rfl⟩
  · have some : 0 < ((nanosPerSecond + frequencyHz / 2) / frequencyHz).toNat :=
      Nat.pos_of_ne_zero fun zero => none (UInt64.toNat_inj.mp zero)
    exact ⟨_, rfl, (Nat.max_eq_right some).symm⟩

end Tyrne.Timer
