import Tyrne.Aarch64
import Tyrne.Lib.Guards

/-!
# Critical sections

`IrqGuard` of `hal/src/cpu.rs`, over the processor of the board and over `FakeCpu` of
`test-hal/src/cpu.rs`. Safe code may drop its guards in any order.
-/

namespace Tyrne.CriticalSection

open Tyrne.Lib.Runs
open Tyrne.Lib.Guards
open Tyrne.Sched (IrqState)
open Tyrne.Aarch64

set_option autoImplicit false

/-- The methods of `Cpu` that act on the core. -/
structure HalCpu (Machine : Type) where
  disableIrqs : Machine → IrqState × Machine
  restoreIrqState : IrqState → Machine → Machine
  waitForInterrupt : Machine → Machine
  instructionBarrier : Machine → Machine

structure IrqGuard where
  prev : IrqState
  deriving DecidableEq

section Guard

variable {Machine : Type} (cpu : HalCpu Machine)

def IrqGuard.new (machine : Machine) : IrqGuard × Machine :=
  let (prev, masked) := cpu.disableIrqs machine
  (⟨prev⟩, masked)

def IrqGuard.drop (guard : IrqGuard) (machine : Machine) : Machine :=
  cpu.restoreIrqState guard.prev machine

end Guard

/-- What else is done to the core. -/
inductive CpuOp where
  | waitForInterrupt
  | instructionBarrier
  deriving DecidableEq

def HalCpu.perform {Machine : Type} (cpu : HalCpu Machine) : CpuOp → Machine → Machine
  | .waitForInterrupt => cpu.waitForInterrupt
  | .instructionBarrier => cpu.instructionBarrier

/-! ## The processor of the board -/

/-- `wfi` and `isb` leave the registers. -/
def boardCpu : HalCpu Registers where
  disableIrqs := disableIrqs
  restoreIrqState := restoreIrqState
  waitForInterrupt := id
  instructionBarrier := id

/-- DAIF.I is bit 1 of the mask. -/
def irqsUnmasked (registers : Registers) : Bool := !registers.daif.getLsbD 1

theorem masked_off (registers : Registers) : irqsUnmasked (disableIrqs registers).2 = false := by
  have inMask : (0xf : BitVec 4).getLsbD 1 = true := by decide
  simp only [irqsUnmasked, disableIrqs, inMask, Bool.not_true]

theorem restored (guard other : Registers) :
    irqsUnmasked (restoreIrqState (readDaif guard) other) = irqsUnmasked guard := by
  rw [irqsUnmasked, restore_read_daif]
  rfl

/-- What DAIF.I was when the guard was made. -/
def IrqGuard.sawUnmasked (guard : IrqGuard) : Bool :=
  !(BitVec.ofNat 4 (guard.prev.toNat / 64)).getLsbD 1

def boardGuarding : Guarding Registers IrqGuard CpuOp where
  new := IrqGuard.new boardCpu
  drop := IrqGuard.drop boardCpu
  work := boardCpu.perform
  isOn := irqsUnmasked
  saw := IrqGuard.sawUnmasked
  turns_off := masked_off
  remembers := fun registers => restored registers registers
  puts_back := fun _ _ => rfl
  work_apart := fun op registers => by cases op <;> rfl

/-! ## The processor of the host tests -/

structure FakeCpuState where
  irqsEnabled : Bool
  waitForInterruptCount : UInt64
  instructionBarrierCount : UInt64

def FakeCpuState.new : FakeCpuState := ⟨true, 0, 0⟩

def fakeCpu : HalCpu FakeCpuState where
  disableIrqs := fun state => (if state.irqsEnabled then 1 else 0, { state with irqsEnabled := false })
  restoreIrqState := fun saved state => { state with irqsEnabled := saved != 0 }
  waitForInterrupt := fun state =>
    { state with waitForInterruptCount := state.waitForInterruptCount + 1 }
  instructionBarrier := fun state =>
    { state with instructionBarrierCount := state.instructionBarrierCount + 1 }

def fakeGuarding : Guarding FakeCpuState IrqGuard CpuOp where
  new := IrqGuard.new fakeCpu
  drop := IrqGuard.drop fakeCpu
  work := fakeCpu.perform
  isOn := FakeCpuState.irqsEnabled
  saw := fun guard => guard.prev != 0
  turns_off := fun _ => rfl
  remembers := fun state => by
    rcases state with ⟨enabled, waits, barriers⟩
    cases enabled <;> rfl
  puts_back := fun _ _ => rfl
  work_apart := fun op state => by cases op <;> rfl

/-! ## Both -/

abbrev GuardTrace (Machine : Type) : Type :=
  List (Transition (Guarded Machine IrqGuard) (GuardOp CpuOp))

section Runs

variable {registers : Registers} {trace : GuardTrace Registers} {after : Guarded Registers IrqGuard}

/-- On the board, from unmasked interrupts: interrupts are masked exactly while a guard is
alive, if and only if the oldest guard is always the last to be dropped. `FakeCpu` shows the
same in every state of the same run, whatever the order of the drops. -/
theorem irq_guards_cover (unmasked : irqsUnmasked registers = true)
    (run : Run boardGuarding.Step ⟨registers, []⟩ trace after) :
    ((∀ taken ∈ trace, irqsUnmasked taken.after.core = taken.after.alive.isEmpty) ↔
        ∀ taken ∈ trace, OldestLast taken) ∧
      ∃ fakeTrace fakeAfter, Run fakeGuarding.Step ⟨.new, []⟩ fakeTrace fakeAfter ∧
        fakeTrace.map (fun taken => (taken.label, taken.after.core.irqsEnabled, taken.after.alive.length)) =
          trace.map (fun taken =>
            (taken.label, irqsUnmasked taken.after.core, taken.after.alive.length)) := by
  have on : boardGuarding.image ⟨registers, []⟩ = ⟨true, []⟩ := by
    simp [Guarding.image, boardGuarding, unmasked]
  constructor
  · exact run_covered boardGuarding on run
  · have alike : fakeGuarding.image ⟨.new, []⟩ = boardGuarding.image ⟨registers, []⟩ := by
      rw [on]
      rfl
    rcases run_alike boardGuarding fakeGuarding alike run with ⟨fakeTrace, fakeAfter, fakeRun, same, _⟩
    refine ⟨fakeTrace, fakeAfter, fakeRun, ?_⟩
    have shown := congrArg (List.map fun taken =>
      (taken.label, taken.after.core, taken.after.alive.length)) same
    simpa [Guarding.imageOf, Guarding.image, boardGuarding, fakeGuarding, Function.comp_def] using shown

end Runs

def listening : Registers := ⟨fun _ => 0, 0, fun _ => 0, 0, 0⟩

def nestedSections : List (GuardOp CpuOp) :=
  [.new, .new, .work .waitForInterrupt, .drop 0, .drop 0]

theorem irq_guards_cover_nested :
    irqsUnmasked listening = true ∧
      ∃ trace after, Run boardGuarding.Step ⟨listening, []⟩ trace after ∧
        labels trace = nestedSections ∧
        ∀ taken ∈ trace, irqsUnmasked taken.after.core = taken.after.alive.isEmpty := by
  have unmasked : irqsUnmasked listening = true := by decide
  have followed : ∃ after, follow boardGuarding.next ⟨listening, []⟩ nestedSections = some after :=
    ⟨_, rfl⟩
  rcases followed with ⟨after, followed⟩
  rcases run_of_follow followed with ⟨trace, run, same⟩
  refine ⟨unmasked, trace, after, run, same, (irq_guards_cover unmasked run).1.mpr ?_⟩
  intro taken member place isDrop _
  have listed : GuardOp.drop place ∈ nestedSections := by
    rw [← same, ← isDrop]
    exact List.mem_map_of_mem member
  simpa [nestedSections] using listed

end Tyrne.CriticalSection
