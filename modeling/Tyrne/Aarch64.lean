import Tyrne.Lib.ByteMemory
import Tyrne.Scheduler

/-!
# The context switch of the board

`bsp-qemu-virt/src/cpu.rs`: the saved registers of a task, the instructions of
`context_switch_asm`, and the interrupt mask. The instructions run on the registers
that AAPCS64 makes the callee save, the two argument registers, the scratch register
and byte-addressed memory.
-/

namespace Tyrne.Aarch64

open Tyrne.Lib.ByteMemory
open Tyrne.Sched (Cpu IrqState)

set_option autoImplicit false

/-! ## Registers and contexts -/

abbrev XReg : Type := Fin 31

abbrev DReg : Type := Fin 32

/-- General-purpose registers, stack pointer, the lower halves of the vector registers,
the program counter and the four bits of `DAIF`. -/
structure Registers where
  x : XReg → UInt64
  sp : UInt64
  d : DReg → UInt64
  pc : UInt64
  daif : BitVec 4

structure Aarch64TaskContext where
  x19X28 : Vector UInt64 10
  fp : UInt64
  lr : UInt64
  sp : UInt64
  d8D15 : Vector UInt64 8
  deriving DecidableEq, Repr

namespace Aarch64TaskContext

def default : Aarch64TaskContext where
  x19X28 := Vector.replicate 10 0
  fp := 0
  lr := 0
  sp := 0
  d8D15 := Vector.replicate 8 0

/-- The fields in the order `repr(C)` lays them out; every field is made of words, so
there is no padding. -/
def words (context : Aarch64TaskContext) : List UInt64 :=
  context.x19X28.toList ++ [context.fp, context.lr, context.sp] ++ context.d8D15.toList

/-- Where the fields begin. -/
def fpOffset : Nat := 8 * 10
def lrOffset : Nat := fpOffset + 8
def spOffset : Nat := lrOffset + 8
def d8D15Offset : Nat := spOffset + 8

def size : Nat := d8D15Offset + 8 * 8

/-- The context stored from `address` on. -/
def readFrom (memory : Memory) (address : Nat) : Aarch64TaskContext where
  x19X28 := Vector.ofFn fun index => load memory (address + 8 * index)
  fp := load memory (address + fpOffset)
  lr := load memory (address + lrOffset)
  sp := load memory (address + spOffset)
  d8D15 := Vector.ofFn fun index => load memory (address + d8D15Offset + 8 * index)

def writeTo (memory : Memory) (address : Nat) (context : Aarch64TaskContext) : Memory :=
  storeAll memory address context.words

end Aarch64TaskContext

/-! ## Instructions -/

structure State where
  registers : Registers
  memory : Memory

/-- The instructions `context_switch_asm` is made of. Offsets are immediates. -/
inductive Instruction where
  | stpX (first second : XReg) (base : XReg) (offset : UInt64)
  | stpD (first second : DReg) (base : XReg) (offset : UInt64)
  | strX (source : XReg) (base : XReg) (offset : UInt64)
  | ldpX (first second : XReg) (base : XReg) (offset : UInt64)
  | ldpD (first second : DReg) (base : XReg) (offset : UInt64)
  | ldrX (target : XReg) (base : XReg) (offset : UInt64)
  | movFromSp (target : XReg)
  | movToSp (source : XReg)
  | ret
  deriving DecidableEq, Repr

namespace Registers

def setX (registers : Registers) (target : XReg) (value : UInt64) : Registers :=
  { registers with x := Function.update registers.x target value }

def setD (registers : Registers) (target : DReg) (value : UInt64) : Registers :=
  { registers with d := Function.update registers.d target value }

def withArguments (registers : Registers) (first second : UInt64) : Registers :=
  (registers.setX 0 first).setX 1 second

def advance (registers : Registers) : Registers := { registers with pc := registers.pc + 4 }

def address (registers : Registers) (base : XReg) (offset : UInt64) : Nat :=
  (registers.x base + offset).toNat

end Registers

def Instruction.exec (state : State) : Instruction → State
  | .stpX first second base offset =>
      let memory := store state.memory (state.registers.address base offset)
        (state.registers.x first)
      ⟨state.registers.advance, store memory (state.registers.address base (offset + 8))
        (state.registers.x second)⟩
  | .stpD first second base offset =>
      let memory := store state.memory (state.registers.address base offset)
        (state.registers.d first)
      ⟨state.registers.advance, store memory (state.registers.address base (offset + 8))
        (state.registers.d second)⟩
  | .strX source base offset =>
      ⟨state.registers.advance, store state.memory (state.registers.address base offset)
        (state.registers.x source)⟩
  | .ldpX first second base offset =>
      let registers := state.registers.setX first
        (load state.memory (state.registers.address base offset))
      ⟨(registers.setX second
        (load state.memory (state.registers.address base (offset + 8)))).advance, state.memory⟩
  | .ldpD first second base offset =>
      let registers := state.registers.setD first
        (load state.memory (state.registers.address base offset))
      ⟨(registers.setD second
        (load state.memory (state.registers.address base (offset + 8)))).advance, state.memory⟩
  | .ldrX target base offset =>
      ⟨(state.registers.setX target
        (load state.memory (state.registers.address base offset))).advance, state.memory⟩
  | .movFromSp target =>
      ⟨(state.registers.setX target state.registers.sp).advance, state.memory⟩
  | .movToSp source =>
      ⟨{ state.registers with sp := state.registers.x source }.advance, state.memory⟩
  | .ret => ⟨{ state.registers with pc := state.registers.x 30 }, state.memory⟩

def execute (program : List Instruction) (state : State) : State :=
  program.foldl Instruction.exec state

/-- The half of `context_switch_asm` that saves, with `current` in `x0`. -/
def saveCurrent : List Instruction :=
  [.stpX 19 20 0 0, .stpX 21 22 0 16, .stpX 23 24 0 32, .stpX 25 26 0 48, .stpX 27 28 0 64,
    .stpX 29 30 0 80, .movFromSp 8, .strX 8 0 96, .stpD 8 9 0 104, .stpD 10 11 0 120,
    .stpD 12 13 0 136, .stpD 14 15 0 152]

/-- The half that restores, with `next` in `x1`. -/
def restoreNext : List Instruction :=
  [.ldpD 14 15 1 152, .ldpD 12 13 1 136, .ldpD 10 11 1 120, .ldpD 8 9 1 104, .ldrX 8 1 96,
    .movToSp 8, .ldpX 29 30 1 80, .ldpX 27 28 1 64, .ldpX 25 26 1 48, .ldpX 23 24 1 32,
    .ldpX 21 22 1 16, .ldpX 19 20 1 0]

def contextSwitchAsm : List Instruction := saveCurrent ++ restoreNext ++ [.ret]

/-! ## Contexts in memory -/

namespace Aarch64TaskContext

variable {memory other : Memory} {address : Nat}

@[simp] theorem size_eq : size = 168 := rfl

@[simp] theorem words_length (context : Aarch64TaskContext) : context.words.length = 21 := by
  simp [words]

theorem write_outside {context : Aarch64TaskContext} {place : Nat}
    (outside : place < address ∨ address + size ≤ place) :
    context.writeTo memory address place = memory place := by
  apply store_all_outside
  rw [words_length]
  exact outside

theorem read_congr
    (same : ∀ place, address ≤ place → place < address + size → other place = memory place) :
    readFrom other address = readFrom memory address := by
  have word : ∀ offset, offset + 8 ≤ 168 →
      load other (address + offset) = load memory (address + offset) := by
    intro offset inside
    apply load_congr
    intro byte lower upper
    exact same byte (by omega) (by rw [size_eq]; omega)
  have gprs : ∀ index : Fin 10,
      load other (address + 8 * index) = load memory (address + 8 * index) :=
    fun index => word _ (by omega)
  have simd : ∀ index : Fin 8, load other (address + d8D15Offset + 8 * index) =
      load memory (address + d8D15Offset + 8 * index) := by
    intro index
    rw [Nat.add_assoc]
    exact word (104 + 8 * index) (by omega)
  simp only [readFrom, gprs, simd, word fpOffset (by decide), word lrOffset (by decide),
    word spOffset (by decide)]

theorem words_gpr (context : Aarch64TaskContext) (index : Fin 10) :
    context.words[index.val]? = some context.x19X28[index] := by
  simp [words, List.getElem?_append]

theorem words_simd (context : Aarch64TaskContext) (index : Fin 8) :
    context.words[13 + index.val]? = some context.d8D15[index] := by
  have front : (context.x19X28.toList ++ [context.fp, context.lr, context.sp]).length = 13 := by
    simp
  rw [words, List.getElem?_append_right (by rw [front]; omega), front, Nat.add_sub_cancel_left]
  simp

/-- The offsets of `readFrom` are those of `repr(C)`: what was laid out is read back. -/
theorem read_written (context : Aarch64TaskContext) :
    readFrom (context.writeTo memory address) address = context := by
  have word : ∀ index word, context.words[index]? = some word →
      load (context.writeTo memory address) (address + 8 * index) = word :=
    fun index word listed => load_stored listed
  have gprs : (readFrom (context.writeTo memory address) address).x19X28 = context.x19X28 := by
    apply Vector.ext
    intro index bound
    rw [readFrom, Vector.getElem_ofFn]
    exact word index _ (context.words_gpr ⟨index, bound⟩)
  have simd : (readFrom (context.writeTo memory address) address).d8D15 = context.d8D15 := by
    apply Vector.ext
    intro index bound
    have place : address + 104 + 8 * index = address + 8 * (13 + index) := by omega
    rw [readFrom, Vector.getElem_ofFn]
    exact (congrArg _ place).trans (word (13 + index) _ (context.words_simd ⟨index, bound⟩))
  have fp := word 10 context.fp (by simp [words])
  have lr := word 11 context.lr (by simp [words])
  have sp := word 12 context.sp (by simp [words])
  cases context
  simp only [readFrom, mk.injEq]
  exact ⟨gprs, fp, lr, sp, simd⟩

end Aarch64TaskContext

/-! ## What the instructions do -/

def calleeSaved (registers : Registers) : Aarch64TaskContext where
  x19X28 := #v[registers.x 19, registers.x 20, registers.x 21, registers.x 22, registers.x 23,
    registers.x 24, registers.x 25, registers.x 26, registers.x 27, registers.x 28]
  fp := registers.x 29
  lr := registers.x 30
  sp := registers.sp
  d8D15 := #v[registers.d 8, registers.d 9, registers.d 10, registers.d 11, registers.d 12,
    registers.d 13, registers.d 14, registers.d 15]

section Execution

variable {state : State}

theorem exec_daif (instruction : Instruction) (state : State) :
    (instruction.exec state).registers.daif = state.registers.daif := by
  cases instruction <;> rfl

theorem execute_daif (program : List Instruction) (state : State) :
    (execute program state).registers.daif = state.registers.daif := by
  induction program generalizing state with
  | nil => rfl
  | cons first rest ih => exact (ih (first.exec state)).trans (exec_daif first state)

theorem execute_append (front back : List Instruction) (state : State) :
    execute (front ++ back) state = execute back (execute front state) :=
  List.foldl_append

theorem inside_context {base : UInt64} (fits : base.toNat + Aarch64TaskContext.size ≤ 2 ^ 64)
    (offset : Nat) (inside : offset < 168) :
    (base.toNat + offset) % 18446744073709551616 = base.toNat + offset := by
  rw [Aarch64TaskContext.size_eq] at fits
  exact Nat.mod_eq_of_lt (by omega)

/-- The first half lays the callee-saved registers out as a context at `x0`. -/
theorem save_current
    (fits : (state.registers.x 0).toNat + Aarch64TaskContext.size ≤ 2 ^ 64) :
    (execute saveCurrent state).memory =
        (calleeSaved state.registers).writeTo state.memory (state.registers.x 0).toNat ∧
      (execute saveCurrent state).registers.x 1 = state.registers.x 1 := by
  rcases state with ⟨registers, memory⟩
  simp [execute, saveCurrent, Instruction.exec, Registers.address, Registers.advance,
    Registers.setX, Aarch64TaskContext.writeTo, Aarch64TaskContext.words, calleeSaved, storeAll,
    inside_context fits, Nat.add_assoc]

/-- The second half loads the context at `x1` into the callee-saved registers. -/
theorem restore_next
    (fits : (state.registers.x 1).toNat + Aarch64TaskContext.size ≤ 2 ^ 64) :
    calleeSaved (execute restoreNext state).registers =
        Aarch64TaskContext.readFrom state.memory (state.registers.x 1).toNat ∧
      (execute restoreNext state).memory = state.memory := by
  rcases state with ⟨registers, memory⟩
  simp [execute, restoreNext, Instruction.exec, Registers.address, Registers.advance,
    Registers.setX, Registers.setD, calleeSaved, inside_context fits,
    Aarch64TaskContext.readFrom, Aarch64TaskContext.d8D15Offset, Aarch64TaskContext.spOffset,
    Aarch64TaskContext.lrOffset, Aarch64TaskContext.fpOffset]
  exact ⟨rfl, rfl⟩

/-- With `current` at `x0` and `next` at `x1` apart, the switch saves the callee-saved
registers in `current`, loads those of `next`, returns to the address saved in `next`, and
writes no byte outside `current`. -/
theorem context_switch_asm_run
    (currentFits : (state.registers.x 0).toNat + Aarch64TaskContext.size ≤ 2 ^ 64)
    (nextFits : (state.registers.x 1).toNat + Aarch64TaskContext.size ≤ 2 ^ 64)
    (apart : (state.registers.x 0).toNat + Aarch64TaskContext.size ≤ (state.registers.x 1).toNat ∨
      (state.registers.x 1).toNat + Aarch64TaskContext.size ≤ (state.registers.x 0).toNat) :
    (execute contextSwitchAsm state).memory =
        (calleeSaved state.registers).writeTo state.memory (state.registers.x 0).toNat ∧
      calleeSaved (execute contextSwitchAsm state).registers =
        Aarch64TaskContext.readFrom state.memory (state.registers.x 1).toNat ∧
      (execute contextSwitchAsm state).registers.pc =
        (Aarch64TaskContext.readFrom state.memory (state.registers.x 1).toNat).lr := by
  rcases save_current currentFits with ⟨saved, pointer⟩
  have loads := @restore_next (execute saveCurrent state) (by rw [pointer]; exact nextFits)
  rw [pointer] at loads
  have untouched : Aarch64TaskContext.readFrom (execute saveCurrent state).memory
      (state.registers.x 1).toNat =
        Aarch64TaskContext.readFrom state.memory (state.registers.x 1).toNat := by
    apply Aarch64TaskContext.read_congr
    intro place lower upper
    rw [saved]
    exact Aarch64TaskContext.write_outside (by omega)
  rw [untouched] at loads
  rw [contextSwitchAsm, execute_append, execute_append]
  generalize execute restoreNext (execute saveCurrent state) = loaded at loads
  -- the return leaves the memory and the callee-saved registers
  exact ⟨loads.2.trans saved, loads.1, congrArg Aarch64TaskContext.lr loads.1⟩

def Laid {count : Nat} (memory : Memory) (base : Nat) (contexts : Vector Aarch64TaskContext count) :
    Prop :=
  ∀ index : Fin count,
    Aarch64TaskContext.readFrom memory (base + Aarch64TaskContext.size * index) = contexts[index]

/-- A switch between two slots of an array of contexts replaces the one and loads the
other; every other slot keeps what it held. -/
theorem context_array_switch {count base : Nat} {contexts : Vector Aarch64TaskContext count}
    (laid : Laid state.memory base contexts)
    (fits : base + Aarch64TaskContext.size * count ≤ 2 ^ 64) {current next : Fin count}
    (different : current ≠ next)
    (currentAt : (state.registers.x 0).toNat = base + Aarch64TaskContext.size * current)
    (nextAt : (state.registers.x 1).toNat = base + Aarch64TaskContext.size * next) :
    Laid (execute contextSwitchAsm state).memory base
        (contexts.set current (calleeSaved state.registers)) ∧
      calleeSaved (execute contextSwitchAsm state).registers = contexts[next] ∧
      (execute contextSwitchAsm state).registers.pc = contexts[next].lr := by
  have distinct : current.val ≠ next.val := fun same => different (Fin.ext same)
  have currentBound := current.isLt
  have nextBound := next.isLt
  rw [Aarch64TaskContext.size_eq] at fits currentAt nextAt
  have run := @context_switch_asm_run state (by rw [Aarch64TaskContext.size_eq]; omega)
    (by rw [Aarch64TaskContext.size_eq]; omega) (by rw [Aarch64TaskContext.size_eq]; omega)
  rw [nextAt] at run
  have coming : Aarch64TaskContext.readFrom state.memory (base + 168 * next) = contexts[next] :=
    laid next
  rw [coming] at run
  refine ⟨?_, run.2⟩
  intro index
  rw [run.1, currentAt]
  by_cases same : index = current
  · subst same
    rw [Aarch64TaskContext.size_eq, Aarch64TaskContext.read_written]
    simp
  · have apart : current.val ≠ index.val := fun equal => same (Fin.ext equal.symm)
    have kept : (contexts.set current (calleeSaved state.registers))[index] = contexts[index] := by
      exact Vector.getElem_set_ne current.isLt index.isLt apart
    rw [kept, ← laid index]
    apply Aarch64TaskContext.read_congr
    intro place lower upper
    rw [Aarch64TaskContext.size_eq] at lower upper
    apply Aarch64TaskContext.write_outside
    rw [Aarch64TaskContext.size_eq]
    omega

end Execution

/-! ## The processor -/

/-- Where the two contexts of a switch are in memory, and the bytes around them. -/
structure Placement where
  around : Memory
  currentAt : UInt64
  nextAt : UInt64
  currentFits : currentAt.toNat + Aarch64TaskContext.size ≤ 2 ^ 64
  nextFits : nextAt.toNat + Aarch64TaskContext.size ≤ 2 ^ 64
  apart : currentAt.toNat + Aarch64TaskContext.size ≤ nextAt.toNat ∨
    nextAt.toNat + Aarch64TaskContext.size ≤ currentAt.toNat

/-- The state in which `context_switch_asm` is entered: the arguments are in `x0` and
`x1`, the contexts in memory. -/
def Placement.enter (placement : Placement) (current next : Aarch64TaskContext)
    (registers : Registers) : State where
  registers := registers.withArguments placement.currentAt placement.nextAt
  memory := next.writeTo (current.writeTo placement.around placement.currentAt.toNat)
    placement.nextAt.toNat

def contextSwitch (placement : Placement) (current next : Aarch64TaskContext)
    (registers : Registers) : Aarch64TaskContext × Registers :=
  let final := execute contextSwitchAsm (placement.enter current next registers)
  (Aarch64TaskContext.readFrom final.memory placement.currentAt.toNat, final.registers)

def initContext (context : Aarch64TaskContext) (entry stackTop : UInt64) : Aarch64TaskContext :=
  { context with lr := entry, sp := stackTop }

/-- `mrs x, daif`: the mask is in bits 6 to 9. -/
def readDaif (registers : Registers) : IrqState := UInt64.ofNat (64 * registers.daif.toNat)

/-- `mrs x, daif` and `msr daifset, #0xf`. -/
def disableIrqs (registers : Registers) : IrqState × Registers :=
  (readDaif registers, { registers with daif := 0xf })

/-- `msr daif, x`. -/
def restoreIrqState (state : IrqState) (registers : Registers) : Registers :=
  { registers with daif := BitVec.ofNat 4 (state.toNat / 64) }

def qemuVirtCpu (placement : Placement) : Cpu Aarch64TaskContext Registers where
  emptyContext := .default
  initContext := initContext
  disableIrqs := disableIrqs
  restoreIrqState := restoreIrqState
  contextSwitch := contextSwitch placement

section Switch

variable {placement : Placement} {current next : Aarch64TaskContext} {registers : Registers}

/-- What a switch does to the registers and to the context of the task that leaves, wherever
the contexts are. -/
structure Switches (placement : Placement) (current next : Aarch64TaskContext)
    (registers : Registers) : Prop where
  saved : (contextSwitch placement current next registers).1 = calleeSaved registers
  loaded : calleeSaved (contextSwitch placement current next registers).2 = next
  returns : (contextSwitch placement current next registers).2.pc = next.lr
  masked : ∀ count, (execute (contextSwitchAsm.take count)
    (placement.enter current next registers)).registers.daif = registers.daif

theorem context_switch_run (placement : Placement) (current next : Aarch64TaskContext)
    (registers : Registers) : Switches placement current next registers := by
  have run := @context_switch_asm_run (placement.enter current next registers)
    placement.currentFits placement.nextFits placement.apart
  have there : Aarch64TaskContext.readFrom (placement.enter current next registers).memory
      placement.nextAt.toNat = next := Aarch64TaskContext.read_written next
  rcases run with ⟨memory, loaded, returns⟩
  refine ⟨?_, loaded.trans there, returns.trans (congrArg _ there), ?_⟩
  · have written := congrArg
      (fun memory => Aarch64TaskContext.readFrom memory placement.currentAt.toNat) memory
    exact written.trans (Aarch64TaskContext.read_written _)
  · intro count
    exact execute_daif _ _

@[simp] theorem restore_read_daif (registers other : Registers) :
    (restoreIrqState (readDaif registers) other).daif = registers.daif := by
  have small : registers.daif.toNat < 16 := registers.daif.isLt
  have read : (readDaif registers).toNat = 64 * registers.daif.toNat := by
    apply UInt64.toNat_ofNat_of_lt'
    rw [UInt64.size]
    omega
  have whole : 64 * registers.daif.toNat / 64 = registers.daif.toNat := by omega
  rw [restoreIrqState, read, whole]
  simp

end Switch

end Tyrne.Aarch64
