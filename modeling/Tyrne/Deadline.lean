import Mathlib.Order.Bounds.Basic
import Tyrne.Lib.Runs
import Tyrne.Timer

/-!
# The one-shot deadline of the board

`bsp-qemu-virt`: the `Timer` implementation of `cpu.rs`, the part of `gic.rs` it uses, and
`irq_entry` of `exceptions.rs`. Arming and cancelling are sequences of register writes;
counter ticks and interrupts fall between any two of them.
-/

namespace Tyrne.Deadline

open Tyrne.Lib.Runs
open Tyrne.Timer

set_option autoImplicit false

/-! ## Registers -/

abbrev IrqNumber : Type := UInt32

/-- PPI 27, the line of the virtual timer. -/
def timerIrq : IrqNumber := 27

def gicMaxIrq : UInt32 := 1020

def gicSpuriousIntid : UInt32 := 1023

def giccIarIntidMask : UInt32 := 0x3FF

/-- The virtual timer, the enable bits of the distributor (32 lines a word), and the
interrupt the processor has acknowledged but not ended. -/
structure Registers where
  cntvct : UInt64
  cntvCval : UInt64
  cntvCtl : UInt64
  gicdIsenabler : Nat → BitVec 32
  active : Option IrqNumber

inductive Write where
  | cntvCval (value : UInt64)
  | cntvCtl (value : UInt64)
  | gicdIsenabler (word : Nat) (bits : BitVec 32)
  | gicdIcenabler (word : Nat) (bits : BitVec 32)
  | giccEoir (irq : IrqNumber)
  deriving DecidableEq, Repr

/-- A one written to an enable register sets the bit, to a clear register clears it. -/
def Write.perform (registers : Registers) : Write → Registers
  | .cntvCval value => { registers with cntvCval := value }
  | .cntvCtl value => { registers with cntvCtl := value }
  | .gicdIsenabler word bits =>
      { registers with gicdIsenabler :=
          Function.update registers.gicdIsenabler word (registers.gicdIsenabler word ||| bits) }
  | .gicdIcenabler word bits =>
      { registers with gicdIsenabler :=
          Function.update registers.gicdIsenabler word (registers.gicdIsenabler word &&& ~~~bits) }
  | .giccEoir irq =>
      { registers with active := if registers.active = some irq then none else registers.active }

def timerEnabled (control : UInt64) : Prop := control &&& 1 = 1

def timerMasked (control : UInt64) : Prop := control &&& 2 = 2

instance (control : UInt64) : Decidable (timerEnabled control) :=
  inferInstanceAs (Decidable (control &&& 1 = 1))

instance (control : UInt64) : Decidable (timerMasked control) :=
  inferInstanceAs (Decidable (control &&& 2 = 2))

namespace Registers

def asserted (registers : Registers) : Prop :=
  timerEnabled registers.cntvCtl ∧ ¬ timerMasked registers.cntvCtl ∧
    registers.cntvCval ≤ registers.cntvct

def irqEnabled (registers : Registers) (irq : IrqNumber) : Prop :=
  (registers.gicdIsenabler (irq.toNat / 32)).getLsbD (irq.toNat % 32) = true

/-- The controller signals the line of the timer to the processor. -/
def deliverable (registers : Registers) : Prop :=
  registers.asserted ∧ registers.irqEnabled timerIrq ∧ registers.active = none

instance (registers : Registers) : Decidable registers.asserted :=
  inferInstanceAs (Decidable (_ ∧ _ ∧ _))

instance (registers : Registers) (irq : IrqNumber) : Decidable (registers.irqEnabled irq) :=
  inferInstanceAs (Decidable (_ = true))

instance (registers : Registers) : Decidable registers.deliverable :=
  inferInstanceAs (Decidable (_ ∧ _ ∧ _))

end Registers

/-! ## The interrupt controller -/

namespace QemuVirtGic

def enable (irq : IrqNumber) : Except Panic Write :=
  if irq < gicMaxIrq then
    .ok (.gicdIsenabler (irq.toNat / 32) (1#32 <<< (irq.toNat % 32)))
  else
    .error (.assertion s!"QemuVirtGic::enable: irq.0 = {irq} exceeds GICv2 architectural max {gicMaxIrq}")

def disable (irq : IrqNumber) : Except Panic Write :=
  if irq < gicMaxIrq then
    .ok (.gicdIcenabler (irq.toNat / 32) (1#32 <<< (irq.toNat % 32)))
  else
    .error (.assertion s!"QemuVirtGic::disable: irq.0 = {irq} exceeds GICv2 architectural max {gicMaxIrq}")

/-- What a read of `GICC_IAR` gives, and the line it makes active. -/
def readIar (registers : Registers) : UInt32 × Registers :=
  if registers.deliverable then (timerIrq, { registers with active := some timerIrq })
  else (gicSpuriousIntid, registers)

def acknowledge (registers : Registers) : Option IrqNumber × Registers :=
  let (raw, after) := readIar registers
  let intid := raw &&& giccIarIntidMask
  (if intid = gicSpuriousIntid then none else some intid, after)

def endOfInterrupt (irq : IrqNumber) : Write := .giccEoir irq

end QemuVirtGic

/-! ## The processor -/

structure QemuVirtCpu where
  frequencyHz : UInt64
  resolutionNs : UInt64
  positive : 0 < frequencyHz
  resolved : resolutionNsForFreq frequencyHz = .ok resolutionNs

namespace QemuVirtCpu

def new (currentEl cntfrq : UInt64) : Except Panic QemuVirtCpu := do
  if currentEl ≠ 1 then
    throw (.assertion s!"QemuVirtCpu::new must run at EL1 per ADR-0012/ADR-0024; observed EL{currentEl} instead")
  if positive : 0 < cntfrq then
    match resolved : resolutionNsForFreq cntfrq with
    | .ok resolution => return ⟨cntfrq, resolution, positive, resolved⟩
    | .error panic => throw panic
  else
    throw (.assertion "CNTFRQ_EL0 reads as zero — firmware/emulator did not initialise the generic timer")

variable (cpu : QemuVirtCpu)

def nowNs (cntvct : UInt64) : Except Panic UInt64 := ticksToNs cntvct cpu.frequencyHz

def armDeadline (deadlineNs : UInt64) : Except Panic (List Write) := do
  let targetTicks ← nsToTicks deadlineNs cpu.frequencyHz
  let line ← QemuVirtGic.enable timerIrq
  return [.cntvCval targetTicks, .cntvCtl 1, line]

def cancelDeadline : Except Panic (List Write) := do
  let line ← QemuVirtGic.disable timerIrq
  return [.cntvCtl 2, line]

end QemuVirtCpu

def irqEntry (registers : Registers) : Except Panic Registers :=
  match QemuVirtGic.acknowledge registers with
  | (none, after) => .ok after
  | (some irq, after) =>
      if irq = timerIrq then
        let masked := (Write.cntvCtl 2).perform after
        .ok ((QemuVirtGic.endOfInterrupt irq).perform masked)
      else
        .error (.assertion s!"irq_entry: unhandled IRQ {irq}")

/-! ## Interleaved calls -/

inductive Call where
  | arm (deadlineNs : UInt64)
  | cancel
  deriving DecidableEq, Repr

def Call.writes (cpu : QemuVirtCpu) : Call → Except Panic (List Write)
  | .arm deadlineNs => cpu.armDeadline deadlineNs
  | .cancel => QemuVirtCpu.cancelDeadline

/-- The deadline the call programs. -/
def Call.deadline? : Call → Option UInt64
  | .arm deadlineNs => some deadlineNs
  | .cancel => none

/-- `call` began last and `pending` are the writes it has still to make: once there are
none it has returned. `programmed` is the deadline written last to the comparator. -/
structure Machine where
  registers : Registers
  call : Option Call
  pending : List Write
  programmed : Option UInt64

inductive Event where
  | begin (call : Call)
  | write
  | tick
  | deliver
  deriving DecidableEq, Repr

def Machine.write (machine : Machine) (write : Write) (rest : List Write) : Machine where
  registers := write.perform machine.registers
  call := machine.call
  pending := rest
  programmed :=
    match write with
    | .cntvCval _ => machine.call.bind Call.deadline?
    | _ => machine.programmed

def step (cpu : QemuVirtCpu) (machine : Machine) : Event → Option Machine
  | .begin call =>
      match machine.pending, call.writes cpu with
      | [], .ok writes => some { machine with call := some call, pending := writes }
      | _, _ => none
  | .write =>
      match machine.pending with
      | write :: rest => some (machine.write write rest)
      | [] => none
  | .tick =>
      some { machine with registers :=
        { machine.registers with cntvct := machine.registers.cntvct + 1 } }
  | .deliver =>
      if machine.registers.deliverable then
        match irqEntry machine.registers with
        | .ok registers => some { machine with registers := registers }
        | .error _ => none
      else none

def Step (cpu : QemuVirtCpu) (before : Machine) (event : Event) (after : Machine) : Prop :=
  step cpu before event = some after

/-! ## What the calls write -/

def lineOn : Write := .gicdIsenabler 0 (1#32 <<< 27)

def lineOff : Write := .gicdIcenabler 0 (1#32 <<< 27)

theorem new_returns {cntfrq : UInt64} (positive : 0 < cntfrq) :
    ∃ cpu, QemuVirtCpu.new 1 cntfrq = .ok cpu ∧ cpu.frequencyHz = cntfrq := by
  obtain ⟨resolution, resolved, _⟩ := resolution_returns positive
  refine ⟨⟨cntfrq, resolution, positive, resolved⟩, ?_, rfl⟩
  simp only [QemuVirtCpu.new, ne_eq, not_true_eq_false, if_false, dif_pos positive]
  split
  · rename_i found same
    cases resolved.symm.trans same
    rfl
  · rename_i same
    cases resolved.symm.trans same

theorem enable_timer : QemuVirtGic.enable timerIrq = .ok lineOn := rfl

theorem disable_timer : QemuVirtGic.disable timerIrq = .ok lineOff := rfl

variable {cpu : QemuVirtCpu}

theorem arm_writes (cpu : QemuVirtCpu) (deadlineNs : UInt64) :
    ∃ target, nsToTicks deadlineNs cpu.frequencyHz = .ok target ∧
      cpu.armDeadline deadlineNs = .ok [.cntvCval target, .cntvCtl 1, lineOn] := by
  obtain ⟨target, converted, _⟩ := ns_to_ticks_value cpu.positive deadlineNs
  refine ⟨target, converted, ?_⟩
  rw [QemuVirtCpu.armDeadline, converted, returned_bind, enable_timer, returned_bind]
  rfl

theorem cancel_writes : QemuVirtCpu.cancelDeadline = .ok [.cntvCtl 2, lineOff] := by
  rw [QemuVirtCpu.cancelDeadline, disable_timer, returned_bind]
  rfl

theorem irq_entry_delivered {registers : Registers} (deliverable : registers.deliverable) :
    irqEntry registers = .ok { registers with cntvCtl := 2, active := none } := by
  have acknowledged : QemuVirtGic.acknowledge registers =
      (some timerIrq, { registers with active := some timerIrq }) := by
    simp only [QemuVirtGic.acknowledge, QemuVirtGic.readIar, if_pos deliverable]
    rfl
  rw [irqEntry, acknowledged]
  rfl

theorem asserted_iff_due {registers : Registers} {deadlineNs : UInt64}
    (fits : (deadlineNs.toNat * cpu.frequencyHz.toNat) ⌈/⌉ 10 ^ 9 ≤ u64Max.toNat)
    (programmed : nsToTicks deadlineNs cpu.frequencyHz = .ok registers.cntvCval)
    (armed : registers.cntvCtl = 1) :
    registers.asserted ↔ ∃ now, cpu.nowNs registers.cntvct = .ok now ∧ deadlineNs ≤ now := by
  obtain ⟨ticks, time, ticksReturned, timeReturned, adjoint⟩ :=
    conversions_adjoint cpu.positive fits registers.cntvct
  cases programmed.symm.trans ticksReturned
  have line : registers.asserted ↔ registers.cntvCval ≤ registers.cntvct := by
    rw [Registers.asserted, armed]
    exact ⟨fun held => held.2.2, fun due => ⟨by decide, by decide, due⟩⟩
  rw [line, adjoint]
  constructor
  · intro due
    exact ⟨time, timeReturned, due⟩
  · rintro ⟨now, nowReturned, due⟩
    cases timeReturned.symm.trans nowReturned
    exact due

/-- The conversions are adjoint, so the comparator of a deadline is the first count at which
the clock has reached it. Both return for every input: no operator overflows. -/
theorem conversion_exact {frequencyHz : UInt64} (positive : 0 < frequencyHz) :
    (∀ ns count : UInt64, (ns.toNat * frequencyHz.toNat) ⌈/⌉ 10 ^ 9 ≤ u64Max.toNat →
      ∃ ticks time, nsToTicks ns frequencyHz = .ok ticks ∧
        ticksToNs count frequencyHz = .ok time ∧ (ticks ≤ count ↔ ns ≤ time)) ∧
    (frequencyHz.toNat ≤ 10 ^ 9 →
      ∀ ns : UInt64, (ns.toNat * frequencyHz.toNat) ⌈/⌉ 10 ^ 9 ≤ u64Max.toNat) ∧
    (∀ cpu : QemuVirtCpu, cpu.frequencyHz = frequencyHz → ∀ deadlineNs : UInt64,
      (deadlineNs.toNat * frequencyHz.toNat) ⌈/⌉ 10 ^ 9 ≤ u64Max.toNat →
      ∃ target rest, cpu.armDeadline deadlineNs = .ok (.cntvCval target :: rest) ∧
        IsLeast {cntvct | ∃ now, cpu.nowNs cntvct = .ok now ∧ deadlineNs ≤ now} target) ∧
    (∀ earlier later : UInt64, earlier ≤ later →
      ∃ first second, ticksToNs earlier frequencyHz = .ok first ∧
        ticksToNs later frequencyHz = .ok second ∧ first ≤ second) ∧
    (∀ earlier later : UInt64, earlier ≤ later →
      ∃ first second, nsToTicks earlier frequencyHz = .ok first ∧
        nsToTicks later frequencyHz = .ok second ∧ first ≤ second) := by
  refine ⟨fun ns count fits => conversions_adjoint positive fits count,
    fun slow ns => ticks_fit slow ns, ?_,
    fun _ _ ordered => ticks_to_ns_mono positive ordered,
    fun _ _ ordered => ns_to_ticks_mono positive ordered⟩
  rintro cpu rfl deadlineNs fits
  obtain ⟨target, converted, writes⟩ := arm_writes cpu deadlineNs
  refine ⟨target, _, writes, ?_, ?_⟩
  · obtain ⟨ticks, time, ticksReturned, timeReturned, adjoint⟩ :=
      conversions_adjoint positive fits target
    cases converted.symm.trans ticksReturned
    exact ⟨time, timeReturned, adjoint.mp (UInt64.le_refl _)⟩
  · rintro count ⟨now, nowReturned, due⟩
    obtain ⟨ticks, time, ticksReturned, timeReturned, adjoint⟩ :=
      conversions_adjoint positive fits count
    cases converted.symm.trans ticksReturned
    cases timeReturned.symm.trans nowReturned
    exact adjoint.mpr due

theorem conversion_exact_virt :
    ∃ ticks time, nsToTicks 1001 62500000 = .ok ticks ∧
      ticksToNs 63 62500000 = .ok time ∧ (ticks ≤ 63 ↔ 1001 ≤ time) :=
  (@conversion_exact 62500000 (by decide)).1 1001 63
    ((@conversion_exact 62500000 (by decide)).2.1 (by decide) 1001)

end Tyrne.Deadline
