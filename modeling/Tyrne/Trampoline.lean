import Mathlib.Data.Fintype.Basic
import Mathlib.Tactic.FinCases
import Mathlib.Tactic.IntervalCases
import Tyrne.Aarch64

/-!
# The interrupt trampoline

`tyrne_irq_curr_el_trampoline` of `bsp-qemu-virt/src/vectors.s`, instruction by instruction,
around a function in the place of `irq_entry` that keeps to AAPCS64. The frame is the
`TrapFrame` of `exceptions.rs`.
-/

namespace Tyrne.Trampoline

open Tyrne.Lib.ByteMemory
open Tyrne.Aarch64 (XReg)

set_option autoImplicit false

/-! ## The machine -/

abbrev VReg : Type := Fin 32

-- Registers are written as numerals.
local instance someXReg : NeZero 31 := ⟨by decide⟩
local instance someVReg : NeZero 32 := ⟨by decide⟩

/-- Registers an interrupt handler can change, and memory. -/
structure Machine where
  x : XReg → UInt64
  sp : UInt64
  v : VReg → BitVec 128
  elrEl1 : UInt64
  spsrEl1 : UInt64
  pstate : UInt64
  pc : UInt64
  memory : Memory

/-- The instructions of the trampoline. Pairs are addressed from `sp`. -/
inductive Instruction where
  | subSp (amount : UInt64)
  | addSp (amount : UInt64)
  | stp (first second : XReg) (offset : UInt64)
  | ldp (first second : XReg) (offset : UInt64)
  | mrsElrEl1 (target : XReg)
  | mrsSpsrEl1 (target : XReg)
  | msrElrEl1 (source : XReg)
  | msrSpsrEl1 (source : XReg)
  | movFromSp (target : XReg)
  | blIrqEntry
  | eret
  deriving DecidableEq, Repr

namespace Machine

def setX (machine : Machine) (target : XReg) (value : UInt64) : Machine :=
  { machine with x := Function.update machine.x target value }

def advance (machine : Machine) : Machine := { machine with pc := machine.pc + 4 }

def address (machine : Machine) (offset : UInt64) : Nat := (machine.sp + offset).toNat

end Machine

/-- One instruction; `irqEntry` is what the called function makes of the machine. -/
def Instruction.exec (irqEntry : Machine → Machine) (machine : Machine) : Instruction → Machine
  | .subSp amount => { machine with sp := machine.sp - amount }.advance
  | .addSp amount => { machine with sp := machine.sp + amount }.advance
  | .stp first second offset =>
      let memory := store machine.memory (machine.address offset) (machine.x first)
      { machine with memory := store memory (machine.address (offset + 8)) (machine.x second) }.advance
  | .ldp first second offset =>
      ((machine.setX first (load machine.memory (machine.address offset))).setX second
        (load machine.memory (machine.address (offset + 8)))).advance
  | .mrsElrEl1 target => (machine.setX target machine.elrEl1).advance
  | .mrsSpsrEl1 target => (machine.setX target machine.spsrEl1).advance
  | .msrElrEl1 source => { machine with elrEl1 := machine.x source }.advance
  | .msrSpsrEl1 source => { machine with spsrEl1 := machine.x source }.advance
  | .movFromSp target => (machine.setX target machine.sp).advance
  | .blIrqEntry => irqEntry (machine.setX 30 (machine.pc + 4))
  | .eret => { machine with pc := machine.elrEl1, pstate := machine.spsrEl1 }

def execute (irqEntry : Machine → Machine) (program : List Instruction) (machine : Machine) :
    Machine :=
  program.foldl (Instruction.exec irqEntry) machine

/-- Up to the argument of the call. -/
def saveFrame : List Instruction :=
  [.subSp 192, .stp 0 1 0x00, .stp 2 3 0x10, .stp 4 5 0x20, .stp 6 7 0x30, .stp 8 9 0x40,
    .stp 10 11 0x50, .stp 12 13 0x60, .stp 14 15 0x70, .stp 16 17 0x80, .stp 18 30 0x90,
    .mrsElrEl1 0, .mrsSpsrEl1 1, .stp 0 1 0xA0, .movFromSp 0]

/-- From behind the call up to the return. -/
def restoreFrame : List Instruction :=
  [.ldp 0 1 0xA0, .msrElrEl1 0, .msrSpsrEl1 1, .ldp 18 30 0x90, .ldp 16 17 0x80,
    .ldp 14 15 0x70, .ldp 12 13 0x60, .ldp 10 11 0x50, .ldp 8 9 0x40, .ldp 6 7 0x30,
    .ldp 4 5 0x20, .ldp 2 3 0x10, .ldp 0 1 0x00, .addSp 192]

def tyrneIrqCurrElTrampoline : List Instruction :=
  saveFrame ++ [.blIrqEntry] ++ restoreFrame ++ [.eret]

/-! ## The frame -/

structure TrapFrame where
  x0X1 : Vector UInt64 2
  x2X3 : Vector UInt64 2
  x4X5 : Vector UInt64 2
  x6X7 : Vector UInt64 2
  x8X9 : Vector UInt64 2
  x10X11 : Vector UInt64 2
  x12X13 : Vector UInt64 2
  x14X15 : Vector UInt64 2
  x16X17 : Vector UInt64 2
  x18Lr : Vector UInt64 2
  elrSpsr : Vector UInt64 2
  reserved : Vector UInt64 2
  deriving DecidableEq, Repr

namespace TrapFrame

def pair (memory : Memory) (base : UInt64) (first : Nat) : Vector UInt64 2 :=
  Vector.ofFn fun index => load memory (slot base (first + index))

/-- The frame at an address, laid out by `repr(C)`: every field is made of words. -/
def readFrom (memory : Memory) (base : UInt64) : TrapFrame where
  x0X1 := pair memory base 0
  x2X3 := pair memory base 2
  x4X5 := pair memory base 4
  x6X7 := pair memory base 6
  x8X9 := pair memory base 8
  x10X11 := pair memory base 10
  x12X13 := pair memory base 12
  x14X15 := pair memory base 14
  x16X17 := pair memory base 16
  x18Lr := pair memory base 18
  elrSpsr := pair memory base 20
  reserved := pair memory base 22

end TrapFrame

/-! ## The calling convention -/

/-- `d` registers are the lower halves of the vector registers. -/
def lowerHalf (value : BitVec 128) : BitVec 64 := value.extractLsb' 0 64

def upperHalf (value : BitVec 128) : BitVec 64 := value.extractLsb' 64 64

/-- What a function called with the frame at `sp` keeps. It may change `x0` to `x18`, `x30`,
the flags, `v0` to `v7`, `v16` to `v31`, the upper halves of `v8` to `v15`, `ELR_EL1`,
`SPSR_EL1` and memory outside the frame. -/
structure Keeps (called returned : Machine) : Prop where
  x19X29 : ∀ register : XReg, 19 ≤ register → register ≤ 29 → returned.x register = called.x register
  sp : returned.sp = called.sp
  d8D15 : ∀ register : VReg, 8 ≤ register → register ≤ 15 →
    lowerHalf (returned.v register) = lowerHalf (called.v register)
  frame : TrapFrame.readFrom returned.memory called.sp = TrapFrame.readFrom called.memory called.sp
  pc : returned.pc = called.x 30

def Conforms (irqEntry : Machine → Machine) : Prop := ∀ called, Keeps called (irqEntry called)

/-- Everything the interrupted code can read in registers is as it was, and it goes on where
it was interrupted. -/
structure Transparent (interrupted resumed : Machine) : Prop where
  x : ∀ register, resumed.x register = interrupted.x register
  sp : resumed.sp = interrupted.sp
  elrEl1 : resumed.elrEl1 = interrupted.elrEl1
  spsrEl1 : resumed.spsrEl1 = interrupted.spsrEl1
  v : ∀ register, resumed.v register = interrupted.v register
  pc : resumed.pc = interrupted.elrEl1
  pstate : resumed.pstate = interrupted.spsrEl1

/-! ## What the two halves do -/

def savedWords (machine : Machine) : List UInt64 :=
  [machine.x 0, machine.x 1, machine.x 2, machine.x 3, machine.x 4, machine.x 5, machine.x 6,
    machine.x 7, machine.x 8, machine.x 9, machine.x 10, machine.x 11, machine.x 12,
    machine.x 13, machine.x 14, machine.x 15, machine.x 16, machine.x 17, machine.x 18,
    machine.x 30, machine.elrEl1, machine.spsrEl1]

def frameIndex (register : XReg) : Option Nat :=
  if register ≤ 18 then some register.val else if register = 30 then some 19 else none

/-- The machine `irq_entry` is called on. -/
def atCall (irqEntry : Machine → Machine) (interrupted : Machine) : Machine :=
  let saved := execute irqEntry saveFrame interrupted
  saved.setX 30 (saved.pc + 4)

section Halves

variable {irqEntry : Machine → Machine} {machine : Machine}

theorem execute_append (front back : List Instruction) :
    execute irqEntry (front ++ back) machine = execute irqEntry back (execute irqEntry front machine) :=
  List.foldl_append

theorem execute_eret : execute irqEntry [.eret] machine =
    { machine with pc := machine.elrEl1, pstate := machine.spsrEl1 } := rfl

theorem frame_memory :
    (atCall irqEntry machine).memory =
      storeFrom machine.memory (machine.sp - 192) 0 (savedWords machine) := by
  simp [atCall, execute, saveFrame, Instruction.exec, Machine.setX, Machine.advance,
    Machine.address, storeFrom, slot, savedWords]

theorem frame_sp : (atCall irqEntry machine).sp = machine.sp - 192 := rfl

theorem frame_v : (atCall irqEntry machine).v = machine.v := rfl

theorem frame_x :
    (atCall irqEntry machine).x 0 = machine.sp - 192 ∧
      ∀ register : XReg, frameIndex register = none →
        (atCall irqEntry machine).x register = machine.x register := by
  refine ⟨rfl, ?_⟩
  intro register unsaved
  have scratch : register ≠ 0 ∧ register ≠ 1 ∧ register ≠ 30 := by
    refine ⟨?_, ?_, ?_⟩ <;> rintro rfl <;> cases unsaved
  simp [atCall, execute, saveFrame, Instruction.exec, Machine.setX, Machine.advance, scratch]

theorem restore_x (register : XReg) :
    (execute irqEntry restoreFrame machine).x register =
      match frameIndex register with
      | some index => load machine.memory (slot machine.sp index)
      | none => machine.x register := by
  simp only [execute, restoreFrame, Instruction.exec, Machine.setX, Machine.advance,
    Machine.address, List.foldl_cons, List.foldl_nil, Function.update_apply, slot]
  fin_cases register <;> rfl

theorem restore_elr :
    (execute irqEntry restoreFrame machine).elrEl1 = load machine.memory (slot machine.sp 20) := rfl

theorem restore_spsr :
    (execute irqEntry restoreFrame machine).spsrEl1 = load machine.memory (slot machine.sp 21) := rfl

theorem restore_sp : (execute irqEntry restoreFrame machine).sp = machine.sp + 192 := rfl

theorem restore_v : (execute irqEntry restoreFrame machine).v = machine.v := rfl

theorem frame_word {index : Nat} {word : UInt64} (listed : (savedWords machine)[index]? = some word) :
    load (atCall irqEntry machine).memory (slot (atCall irqEntry machine).sp index) = word := by
  have stored := @load_stored_from machine.memory (machine.sp - 192) _ 0 index word
    (by simp [savedWords]) listed
  rw [Nat.zero_add] at stored
  rw [frame_memory, frame_sp]
  exact stored

end Halves

theorem TrapFrame.word_congr {memory other : Memory} {base : UInt64}
    (same : readFrom other base = readFrom memory base) {index : Nat} (inside : index < 24) :
    load other (slot base index) = load memory (slot base index) := by
  have pairs : pair other base (2 * (index / 2)) = pair memory base (2 * (index / 2)) := by
    have few : index / 2 < 12 := by omega
    generalize index / 2 = field at few
    simp only [readFrom, TrapFrame.mk.injEq] at same
    rcases same with ⟨f0, f1, f2, f3, f4, f5, f6, f7, f8, f9, f10, f11⟩
    interval_cases field
    exacts [f0, f1, f2, f3, f4, f5, f6, f7, f8, f9, f10, f11]
  have parity : index % 2 < 2 := Nat.mod_lt _ (by decide)
  have word := congrArg (fun words : Vector UInt64 2 => words[index % 2]) pairs
  simp only [pair, Vector.getElem_ofFn, Nat.div_add_mod] at word
  exact word

/-! ## Transparency -/

section Whole

variable {irqEntry : Machine → Machine} {interrupted : Machine}

theorem saved_register {register : XReg} {index : Nat} (saved : frameIndex register = some index) :
    (savedWords interrupted)[index]? = some (interrupted.x register) ∧ index < 24 := by
  fin_cases register <;> first | (cases saved; done) | (cases saved; exact ⟨rfl, by decide⟩)

theorem unsaved_register {register : XReg} (unsaved : frameIndex register = none) :
    19 ≤ register ∧ register ≤ 29 := by
  fin_cases register <;> first | (cases unsaved; done) | decide

/-- What the call does to the machine reaches the interrupted code only in the vector
registers: the frame brings back all the rest. -/
theorem trampoline_restores (conforms : Conforms irqEntry) (interrupted : Machine) :
    (∀ register, (execute irqEntry tyrneIrqCurrElTrampoline interrupted).x register =
      interrupted.x register) ∧
    (execute irqEntry tyrneIrqCurrElTrampoline interrupted).sp = interrupted.sp ∧
    (execute irqEntry tyrneIrqCurrElTrampoline interrupted).elrEl1 = interrupted.elrEl1 ∧
    (execute irqEntry tyrneIrqCurrElTrampoline interrupted).spsrEl1 = interrupted.spsrEl1 ∧
    (execute irqEntry tyrneIrqCurrElTrampoline interrupted).v =
      (irqEntry (atCall irqEntry interrupted)).v := by
  have keeps := conforms (atCall irqEntry interrupted)
  have word : ∀ {index word}, index < 24 → (savedWords interrupted)[index]? = some word →
      load (irqEntry (atCall irqEntry interrupted)).memory
        (slot (irqEntry (atCall irqEntry interrupted)).sp index) = word := by
    intro index word inside listed
    rw [keeps.sp, TrapFrame.word_congr keeps.frame inside]
    exact frame_word listed
  have call : execute irqEntry [.blIrqEntry] (execute irqEntry saveFrame interrupted) =
      irqEntry (atCall irqEntry interrupted) := rfl
  rw [tyrneIrqCurrElTrampoline, execute_append, execute_append, execute_append, call,
    execute_eret]
  dsimp only
  refine ⟨?_, ?_, ?_, ?_, restore_v⟩
  · intro register
    rw [restore_x]
    cases saved : frameIndex register with
    | some index =>
        rcases saved_register saved with ⟨listed, inside⟩
        exact word inside listed
    | none =>
        rcases unsaved_register saved with ⟨lower, upper⟩
        exact (keeps.x19X29 register lower upper).trans (frame_x.2 register saved)
  · rw [restore_sp, keeps.sp, frame_sp, UInt64.sub_add_cancel]
  · rw [restore_elr]
    exact word (by decide) rfl
  · rw [restore_spsr]
    exact word (by decide) rfl

/-- What the calling convention leaves to the caller to save. -/
structure KeepsVectors (called returned : Machine) : Prop where
  v0V7 : ∀ register : VReg, register ≤ 7 → returned.v register = called.v register
  v16V31 : ∀ register : VReg, 16 ≤ register → returned.v register = called.v register
  upperHalves : ∀ register : VReg, 8 ≤ register → register ≤ 15 →
    upperHalf (returned.v register) = upperHalf (called.v register)

theorem halves_determine {left right : BitVec 128} (lower : lowerHalf left = lowerHalf right)
    (upper : upperHalf left = upperHalf right) : left = right := by
  apply BitVec.eq_of_getLsbD_eq
  intro bit bound
  rcases Nat.lt_or_ge bit 64 with low | high
  · have same := congrArg (BitVec.getLsbD · bit) lower
    simpa [lowerHalf, low] using same
  · have same := congrArg (BitVec.getLsbD · (bit - 64)) upper
    have inside : bit - 64 < 64 := by omega
    have whole : 64 + (bit - 64) = bit := by omega
    simpa [upperHalf, inside, whole] using same

theorem between_halves : ∀ register : VReg, ¬ register ≤ 7 → ¬ 16 ≤ register →
    8 ≤ register ∧ register ≤ 15 := by decide

theorem keeps_vectors_iff {called returned : Machine} (keeps : Keeps called returned) :
    KeepsVectors called returned ↔ ∀ register, returned.v register = called.v register := by
  constructor
  · intro kept register
    by_cases low : register ≤ 7
    · exact kept.v0V7 register low
    by_cases high : 16 ≤ register
    · exact kept.v16V31 register high
    have middle : 8 ≤ register ∧ register ≤ 15 := between_halves register low high
    exact halves_determine (keeps.d8D15 register middle.1 middle.2)
      (kept.upperHalves register middle.1 middle.2)
  · intro same
    exact ⟨fun register _ => same register, fun register _ => same register,
      fun register _ _ => congrArg upperHalf (same register)⟩

/-- The interrupted code cannot tell the interrupt exactly when `irq_entry`, as called here,
leaves alone the vector registers it may change. -/
theorem transparent_iff (conforms : Conforms irqEntry) (interrupted : Machine) :
    Transparent interrupted (execute irqEntry tyrneIrqCurrElTrampoline interrupted) ↔
      KeepsVectors (atCall irqEntry interrupted) (irqEntry (atCall irqEntry interrupted)) := by
  rcases trampoline_restores conforms interrupted with ⟨x, sp, elr, spsr, v⟩
  rw [keeps_vectors_iff (conforms _), frame_v, ← v]
  constructor
  · intro transparent
    exact transparent.v
  · intro same
    exact ⟨x, sp, elr, spsr, same, elr, spsr⟩

end Whole

/-! ## A handler that uses a vector register -/

def returning (called : Machine) : Machine := { called with pc := called.x 30 }

def clearing (called : Machine) : Machine :=
  { returning called with v := Function.update called.v 0 0 }

theorem returning_conforms : Conforms returning := fun _ =>
  ⟨fun _ _ _ => rfl, rfl, fun _ _ _ => rfl, rfl, rfl⟩

theorem clearing_conforms : Conforms clearing := by
  intro called
  refine ⟨fun _ _ _ => rfl, rfl, ?_, rfl, rfl⟩
  intro register lower _
  have other : register ≠ 0 := by
    rintro rfl
    exact absurd lower (by decide)
  simp [clearing, other]

def computing : Machine where
  x := fun _ => 0
  sp := 0x40080000
  v := fun _ => BitVec.allOnes 128
  elrEl1 := 0x40080100
  spsrEl1 := 0x3C5
  pstate := 0x3C5
  pc := 0x40081280
  memory := fun _ => 0

theorem transparent_iff_returning :
    Transparent computing (execute returning tyrneIrqCurrElTrampoline computing) ↔
      KeepsVectors (atCall returning computing) (returning (atCall returning computing)) :=
  transparent_iff returning_conforms computing

theorem interrupt_clears_v0 :
    ¬ ∀ irqEntry, Conforms irqEntry → ∀ interrupted,
      Transparent interrupted (execute irqEntry tyrneIrqCurrElTrampoline interrupted) := by
  intro claimed
  have transparent := claimed clearing clearing_conforms computing
  rcases trampoline_restores clearing_conforms computing with ⟨_, _, _, _, left⟩
  have kept : (clearing (atCall clearing computing)).v 0 = computing.v 0 :=
    (congrFun left 0).symm.trans (transparent.v 0)
  exact absurd kept (by decide)

end Tyrne.Trampoline
