import Tyrne.Aarch64
import Tyrne.Lib.Stepping

/-!
# The reset entry

`bsp-qemu-virt/src/boot.s`, instruction by instruction, from the reset vector to
`kernel_entry`, with the addresses `linker.ld` gives to its symbols, on an ARMv8.0-A core
like the `cortex-a72` the repository runs on. An instruction that would trap (a system
register out of reach or guarded by a higher level, an illegal exception return, a store
that is not aligned while the MMU is off) has no next state.
-/

namespace Tyrne.Boot

open Tyrne.Lib.ByteMemory
open Tyrne.Lib.Stepping
open Tyrne.Aarch64 (XReg)

set_option autoImplicit false

-- Registers are written as numerals.
local instance bootXReg : NeZero 31 := ⟨by decide⟩

/-! ## The machine -/

inductive ExceptionLevel where
  | el0
  | el1
  | el2
  | el3
  deriving DecidableEq, Repr

def ExceptionLevel.number : ExceptionLevel → Nat
  | .el0 => 0
  | .el1 => 1
  | .el2 => 2
  | .el3 => 3

/-- The register `CurrentEL`: the level is in bits 3 and 2, the rest is zero. -/
def currentEl (level : ExceptionLevel) : UInt64 := UInt64.ofNat (4 * level.number)

/-- System registers that decide how the boot code runs and that it does not write:
`SCTLR` of each level, `CPTR_EL2` and `CPTR_EL3`. One of a level that is not there is zero. -/
structure Controls where
  sctlr : ExceptionLevel → UInt64
  cptrEl2 : UInt64
  cptrEl3 : UInt64

namespace Controls

/-- `SCTLR_ELx.M`: addresses are translated. -/
def mmuOn (controls : Controls) (level : ExceptionLevel) : Bool :=
  (controls.sctlr level).toNat.testBit 0

/-- `CPTR_EL2.TCPAC` and `CPTR_EL3.TCPAC`: an access to `CPACR_EL1` traps to that level from
the levels below it. -/
def trapsCpacr (controls : Controls) : ExceptionLevel → Bool
  | .el0 | .el1 => controls.cptrEl2.toNat.testBit 31 || controls.cptrEl3.toNat.testBit 31
  | .el2 => controls.cptrEl3.toNat.testBit 31
  | .el3 => false

/-- `CPTR_EL2.TFP` and `CPTR_EL3.TFP`: floating point at EL1 traps. -/
def trapsFp (controls : Controls) : Bool :=
  controls.cptrEl2.toNat.testBit 10 || controls.cptrEl3.toNat.testBit 10

end Controls

/-- What the boot code can see or change. There is a stack pointer for each exception
level; `cpacrInEffect` is the value of `CPACR_EL1` of the last context synchronisation. -/
structure Machine where
  x : XReg → UInt64
  spBank : ExceptionLevel → UInt64
  spSel : Bool
  pc : UInt64
  el : ExceptionLevel
  daif : BitVec 4
  z : Bool
  c : Bool
  hcrEl2 : UInt64
  spsrEl2 : UInt64
  elrEl2 : UInt64
  cpacrEl1 : UInt64
  cpacrInEffect : UInt64
  controls : Controls
  memory : Memory

namespace Machine

/-- Floating point can be used at EL1: `CPACR_EL1.FPEN` allows it and no higher level traps
it. -/
def fpEnabled (machine : Machine) : Bool :=
  machine.cpacrInEffect.toNat.testBit 20 && !machine.controls.trapsFp

def setX (machine : Machine) (target : XReg) (value : UInt64) : Machine :=
  { machine with x := Function.update machine.x target value }

def advance (machine : Machine) : Machine := { machine with pc := machine.pc + 4 }

@[simp] theorem setX_self (machine : Machine) (target : XReg) (value : UInt64) :
    (machine.setX target value).x target = value := by
  simp [setX]

@[simp] theorem advance_x (machine : Machine) : machine.advance.x = machine.x := rfl

def selected (machine : Machine) : ExceptionLevel := if machine.spSel then machine.el else .el0

def sp (machine : Machine) : UInt64 := machine.spBank machine.selected

/-- Only from this exception level on; elsewhere the instruction is undefined. -/
def fromLevel (machine : Machine) (level : ExceptionLevel) (result : Machine) : Option Machine :=
  if level.number ≤ machine.el.number then some result else none

end Machine

/-! ## Labels and symbols -/

inductive Label where
  | start
  | haltUnsupportedEl
  | el2ToEl1
  | postEret
  | local0
  | local1
  | local2
  deriving DecidableEq, Repr

inductive Symbol where
  | label (name : Label)
  | stackTop
  | bssStart
  | bssEnd
  | kernelEntry
  deriving DecidableEq, Repr

inductive Instruction where
  | msrDaifset (mask : BitVec 4)
  | mrsCurrentEl (target : XReg)
  | andImmediate (target source : XReg) (mask : UInt64)
  | cmpImmediate (left : XReg) (right : UInt64)
  | cmp (left right : XReg)
  | bEq (target : Label)
  | bHs (target : Label)
  | b (target : Label)
  | mov (target : XReg) (value : UInt64)
  | movToSp (source : XReg)
  | msrHcrEl2 (source : XReg)
  | msrSpsrEl2 (source : XReg)
  | msrElrEl2 (source : XReg)
  | msrCpacrEl1 (source : XReg)
  | adrp (target : XReg) (symbol : Symbol)
  | addLo12 (target source : XReg) (symbol : Symbol)
  | strXzrPost (base : XReg) (increment : UInt64)
  | isb
  | wfe
  | eret
  | bl (symbol : Symbol)
  deriving DecidableEq, Repr

/-- `_start`, each label with the instructions up to the next one. -/
def source : List (Label × List Instruction) :=
  [(.start,
      [.msrDaifset 0xf, .mrsCurrentEl 0, .andImmediate 0 0 ((3 : UInt64) <<< 2),
        .cmpImmediate 0 ((2 : UInt64) <<< 2), .bEq .el2ToEl1,
        .cmpImmediate 0 ((1 : UInt64) <<< 2), .bEq .postEret]),
    (.haltUnsupportedEl, [.wfe, .b .haltUnsupportedEl]),
    (.el2ToEl1,
      [.mov 0 ((1 : UInt64) <<< 31), .msrHcrEl2 0, .mov 0 0x3c5, .msrSpsrEl2 0,
        .adrp 0 (.label .postEret), .addLo12 0 0 (.label .postEret), .msrElrEl2 0, .eret]),
    (.postEret,
      [.adrp 0 .stackTop, .addLo12 0 0 .stackTop, .movToSp 0, .mov 0 0x300000, .msrCpacrEl1 0,
        .isb, .adrp 0 .bssStart, .addLo12 0 0 .bssStart, .adrp 1 .bssEnd, .addLo12 1 1 .bssEnd]),
    (.local0, [.cmp 0 1, .bHs .local1, .strXzrPost 0 8, .b .local0]),
    (.local1, [.bl .kernelEntry]),
    (.local2, [.wfe, .b .local2])]

def code : List Instruction := source.flatMap Prod.snd

def indexIn : List (Label × List Instruction) → Label → Nat
  | [], _ => 0
  | (name, block) :: rest, label => if name = label then 0 else block.length + indexIn rest label

/-! ## The image -/

def ramOrigin : Nat := 0x40080000
def ramLength : Nat := 128 * 1024 * 1024

/-- The address of an instruction: `.text.boot` stands first in memory. -/
def place (index : Nat) : UInt64 := UInt64.ofNat (ramOrigin + 4 * index)

/-- Where the linker puts the rest of the kernel. -/
structure Image where
  kernelEntry : Nat
  bssStart : Nat
  bssEnd : Nat
  behindBoot : ramOrigin + 4 * code.length ≤ kernelEntry
  inText : kernelEntry + 4 ≤ bssStart
  startAligned : bssStart % 8 = 0
  endAligned : bssEnd % 8 = 0
  ordered : bssStart ≤ bssEnd
  inRam : bssEnd ≤ ramOrigin + ramLength

namespace Image

/-- `. = ALIGN(16); . = . + 64K; __stack_top = .` -/
def stackTop (image : Image) : Nat := (image.bssEnd + 15) / 16 * 16 + 64 * 1024

theorem stack_behind_bss (image : Image) :
    image.stackTop % 16 = 0 ∧ image.bssEnd + 64 * 1024 ≤ image.stackTop := by
  rw [stackTop]
  omega

def address (image : Image) : Symbol → UInt64
  | .label name => place (indexIn source name)
  | .stackTop => UInt64.ofNat image.stackTop
  | .bssStart => UInt64.ofNat image.bssStart
  | .bssEnd => UInt64.ofNat image.bssEnd
  | .kernelEntry => UInt64.ofNat image.kernelEntry

end Image

/-! ## Instructions -/

/-- `HCR_EL2.TGE` and `HCR_EL2.RW`. -/
def tge (hcr : UInt64) : Bool := hcr.toNat.testBit 27
def rw (hcr : UInt64) : Bool := hcr.toNat.testBit 31

/-- Where an exception return from EL2 goes, and the stack pointer it selects, from
`SPSR_EL2.M`. A return to a level that does not run AArch64, to EL1 while `TGE` traps it to
EL2, or to an AArch32 mode is illegal or not one of this machine. -/
def returnsTo (hcr spsr : UInt64) : Option (ExceptionLevel × Bool) :=
  match spsr.toNat % 32 with
  | 0b00000 => if rw hcr then some (.el0, false) else none
  | 0b00100 => if rw hcr && !tge hcr then some (.el1, false) else none
  | 0b00101 => if rw hcr && !tge hcr then some (.el1, true) else none
  | 0b01000 => some (.el2, false)
  | 0b01001 => some (.el2, true)
  | _ => none

def Instruction.exec (image : Image) (machine : Machine) : Instruction → Option Machine
  | .msrDaifset mask =>
      machine.fromLevel .el1 { machine with daif := machine.daif ||| mask }.advance
  | .mrsCurrentEl target =>
      machine.fromLevel .el1
        (machine.setX target (currentEl machine.el)).advance
  | .andImmediate target source mask =>
      some (machine.setX target (machine.x source &&& mask)).advance
  | .cmpImmediate left right =>
      some { machine with z := machine.x left == right, c := right ≤ machine.x left }.advance
  | .cmp left right =>
      some { machine with
        z := machine.x left == machine.x right, c := machine.x right ≤ machine.x left }.advance
  | .bEq target =>
      some (if machine.z then { machine with pc := image.address (.label target) }
        else machine.advance)
  | .bHs target =>
      some (if machine.c then { machine with pc := image.address (.label target) }
        else machine.advance)
  | .b target => some { machine with pc := image.address (.label target) }
  | .mov target value => some (machine.setX target value).advance
  | .movToSp source =>
      some { machine with
        spBank := Function.update machine.spBank machine.selected (machine.x source) }.advance
  | .msrHcrEl2 source => machine.fromLevel .el2 { machine with hcrEl2 := machine.x source }.advance
  | .msrSpsrEl2 source =>
      machine.fromLevel .el2 { machine with spsrEl2 := machine.x source }.advance
  | .msrElrEl2 source => machine.fromLevel .el2 { machine with elrEl2 := machine.x source }.advance
  | .msrCpacrEl1 source =>
      if machine.controls.trapsCpacr machine.el then none
      else machine.fromLevel .el1 { machine with cpacrEl1 := machine.x source }.advance
  | .adrp target symbol =>
      let address := image.address symbol
      some (machine.setX target (address - address % 4096)).advance
  | .addLo12 target source symbol =>
      some (machine.setX target (machine.x source + image.address symbol % 4096)).advance
  | .strXzrPost base increment =>
      let address := machine.x base
      if address.toNat % 8 = 0 then
        some { machine.setX base (address + increment) with
          memory := store machine.memory address.toNat 0 }.advance
      else none
  | .isb => some { machine with cpacrInEffect := machine.cpacrEl1 }.advance
  | .wfe => some machine.advance
  | .eret =>
      match machine.el with
      | .el2 => (returnsTo machine.hcrEl2 machine.spsrEl2).map fun target =>
          { machine with
            el := target.1
            spSel := target.2
            daif := BitVec.ofNat 4 (machine.spsrEl2.toNat / 64)
            pc := machine.elrEl2
            cpacrInEffect := machine.cpacrEl1 }
      | _ => none
  | .bl symbol => some { machine.setX 30 (machine.pc + 4) with pc := image.address symbol }

/-- The instruction of the boot code at an address. -/
def fetch (pc : UInt64) : Option Instruction :=
  if ramOrigin ≤ pc.toNat ∧ (pc.toNat - ramOrigin) % 4 = 0 then
    code[(pc.toNat - ramOrigin) / 4]?
  else none

/-- There are no translation tables here, so with the MMU on nothing is known. -/
def step (image : Image) (machine : Machine) : Option Machine :=
  if machine.controls.mmuOn machine.el then none
  else (fetch machine.pc).bind fun instruction => instruction.exec image machine

/-- The processor leaves reset at the first instruction, not at EL0, with the MMU off at
that level and at EL1. -/
structure Reset where
  machine : Machine
  atVector : machine.pc = place 0
  level : machine.el ≠ .el0
  mmuOff : machine.controls.mmuOn machine.el = false
  mmuOffBelow : machine.controls.mmuOn .el1 = false

/-! ## Straight-line code -/

/-- Instructions that go on behind themselves and touch neither memory nor `DAIF`. -/
def Instruction.straight : Instruction → Bool
  | .msrDaifset _ | .bEq _ | .bHs _ | .b _ | .strXzrPost _ _ | .eret | .bl _ => false
  | _ => true

def execAll (image : Image) : List Instruction → Machine → Option Machine
  | [], machine => some machine
  | instruction :: rest, machine => (instruction.exec image machine).bind (execAll image rest)

section Straight

variable {image : Image} {machine later : Machine} {index : Nat}

theorem place_toNat (small : index < 2 ^ 20) : (place index).toNat = ramOrigin + 4 * index := by
  apply UInt64.toNat_ofNat_of_lt'
  simp only [UInt64.size, ramOrigin]
  omega

theorem place_next (index : Nat) : place index + 4 = place (index + 1) := by
  apply UInt64.toNat_inj.mp
  have four : (4 : UInt64).toNat = 4 := rfl
  rw [UInt64.toNat_add, place, place, four, UInt64.toNat_ofNat', UInt64.toNat_ofNat', ramOrigin]
  omega

theorem fetch_place (small : index < 2 ^ 20) : fetch (place index) = code[index]? := by
  have position : (ramOrigin + 4 * index - ramOrigin) / 4 = index := by omega
  have aligned : ramOrigin ≤ ramOrigin + 4 * index ∧
      (ramOrigin + 4 * index - ramOrigin) % 4 = 0 := by omega
  rw [fetch, place_toNat small, if_pos aligned, position]

theorem step_at {instruction : Instruction} (here : machine.pc = place index)
    (listed : code[index]? = some instruction)
    (off : machine.controls.mmuOn machine.el = false) :
    step image machine = instruction.exec image machine := by
  have inside : index < code.length := (List.getElem?_eq_some_iff.mp listed).1
  have small : index < 2 ^ 20 := inside.trans (by decide)
  rw [step, off, if_neg Bool.false_ne_true, here, fetch_place small, listed, Option.bind_some]

theorem fromLevel_some {level : ExceptionLevel} {result : Machine}
    (allowed : machine.fromLevel level result = some later) : later = result := by
  rw [Machine.fromLevel] at allowed
  split at allowed
  · exact (Option.some.inj allowed).symm
  · cases allowed

/-- What straight code does not touch. -/
structure Untouched (machine later : Machine) : Prop where
  memory : later.memory = machine.memory
  daif : later.daif = machine.daif
  el : later.el = machine.el
  controls : later.controls = machine.controls

theorem Untouched.trans {middle : Machine} (first : Untouched machine middle)
    (second : Untouched middle later) : Untouched machine later where
  memory := second.memory.trans first.memory
  daif := second.daif.trans first.daif
  el := second.el.trans first.el
  controls := second.controls.trans first.controls

theorem Untouched.mmu_off (untouched : Untouched machine later)
    (off : machine.controls.mmuOn machine.el = false) :
    later.controls.mmuOn later.el = false := by
  rw [untouched.controls, untouched.el]
  exact off

theorem straight_exec {instruction : Instruction} (straight : instruction.straight = true)
    (done : instruction.exec image machine = some later) :
    later.pc = machine.pc + 4 ∧ Untouched machine later := by
  cases instruction with
  | mrsCurrentEl | msrHcrEl2 | msrSpsrEl2 | msrElrEl2 =>
      cases fromLevel_some done
      exact ⟨rfl, rfl, rfl, rfl, rfl⟩
  | msrCpacrEl1 =>
      rw [Instruction.exec] at done
      split at done
      · cases done
      · cases fromLevel_some done
        exact ⟨rfl, rfl, rfl, rfl, rfl⟩
  | andImmediate | cmpImmediate | cmp | mov | movToSp | adrp | addLo12 | isb | wfe =>
      cases done
      exact ⟨rfl, rfl, rfl, rfl, rfl⟩
  | msrDaifset | bEq | bHs | b | strXzrPost | eret | bl => cases straight

theorem block_leads {Good : Machine → Prop} {block : List Instruction}
    (good : ∀ state : Machine, Untouched machine state → Good state)
    (off : machine.controls.mmuOn machine.el = false)
    (here : machine.pc = place index) (listed : block <+: code.drop index)
    (straight : ∀ instruction ∈ block, instruction.straight = true)
    (done : execAll image block machine = some later) :
    Leads (step image) Good machine later ∧ later.pc = place (index + block.length) ∧
      Untouched machine later := by
  induction block generalizing machine index with
  | nil =>
      cases done
      exact ⟨.refl _, here, rfl, rfl, rfl, rfl⟩
  | cons instruction rest ih =>
      rcases listed with ⟨behind, split⟩
      have first : code[index]? = some instruction := by
        have head := congrArg (·[0]?) split
        simpa using head.symm
      have remaining : rest <+: code.drop (index + 1) := by
        refine ⟨behind, ?_⟩
        rw [← List.tail_drop, ← split]
        rfl
      rcases Option.bind_eq_some_iff.mp done with ⟨middle, once, more⟩
      rcases straight_exec (straight _ List.mem_cons_self) once with ⟨pc, untouched⟩
      rw [here, place_next] at pc
      have further := ih (fun state same => good state (untouched.trans same))
        (untouched.mmu_off off) pc remaining
        (fun other member => straight other (List.mem_cons_of_mem _ member)) more
      rcases further with ⟨leads, last, same⟩
      refine ⟨.step (good machine ⟨rfl, rfl, rfl, rfl⟩) ?_ leads, ?_, untouched.trans same⟩
      · rw [step_at here first off, once]
      · rw [last, List.length_cons]
        congr 1
        omega

end Straight

/-! ## From the reset vector to the kernel -/

/-- What holds from the second instruction on: interrupts are masked, memory outside the
BSS is as it was, and so are the registers the boot code does not write. -/
structure Guarded (image : Image) (reset : Reset) (machine : Machine) : Prop where
  masked : machine.daif = 0xf
  outside : ∀ address, address < image.bssStart ∨ image.bssEnd ≤ address →
    machine.memory address = reset.machine.memory address
  level : machine.el = reset.machine.el ∨ machine.el = .el1
  controls : machine.controls = reset.machine.controls

/-- The machine gets to an instruction with the memory and the mask it had. -/
structure Arrives (image : Image) (reset : Reset) (machine later : Machine) (index : Nat) :
    Prop where
  leads : Leads (step image) (Guarded image reset) machine later
  pc : later.pc = place index
  memory : later.memory = machine.memory
  daif : later.daif = machine.daif
  level : later.el = machine.el ∨ later.el = .el1
  controls : later.controls = machine.controls

section Blocks

variable {image : Image} {reset : Reset} {machine middle later : Machine} {index target : Nat}

theorem Guarded.mmu_off (guarded : Guarded image reset machine) :
    machine.controls.mmuOn machine.el = false := by
  rw [guarded.controls]
  rcases guarded.level with same | lower
  · rw [same]
    exact reset.mmuOff
  · rw [lower]
    exact reset.mmuOffBelow

theorem Guarded.same (guarded : Guarded image reset machine)
    (untouched : Untouched machine later) : Guarded image reset later where
  masked := untouched.daif.trans guarded.masked
  outside := by
    intro address apart
    rw [untouched.memory]
    exact guarded.outside address apart
  level := by
    rw [untouched.el]
    exact guarded.level
  controls := untouched.controls.trans guarded.controls

theorem Arrives.guarded (arrives : Arrives image reset machine later index)
    (guarded : Guarded image reset machine) : Guarded image reset later where
  masked := arrives.daif.trans guarded.masked
  outside := by
    intro address apart
    rw [arrives.memory]
    exact guarded.outside address apart
  level := by
    rcases arrives.level with same | lower
    · rw [same]
      exact guarded.level
    · exact .inr lower
  controls := arrives.controls.trans guarded.controls

theorem Arrives.trans (first : Arrives image reset machine middle index)
    (second : Arrives image reset middle later target) :
    Arrives image reset machine later target where
  leads := first.leads.trans second.leads
  pc := second.pc
  memory := second.memory.trans first.memory
  daif := second.daif.trans first.daif
  level := by
    rcases second.level with same | lower
    · rw [same]
      exact first.level
    · exact .inr lower
  controls := second.controls.trans first.controls

theorem arrives_block (guarded : Guarded image reset machine) {block : List Instruction}
    (here : machine.pc = place index) (done : execAll image block machine = some later)
    (listed : block <+: code.drop index)
    (straight : ∀ instruction ∈ block, instruction.straight = true) :
    Arrives image reset machine later (index + block.length) := by
  rcases block_leads (fun _ => guarded.same) guarded.mmu_off here listed straight done with
    ⟨leads, pc, same⟩
  exact ⟨leads, pc, same.memory, same.daif, .inl same.el, same.controls⟩

theorem arrives_step (guarded : Guarded image reset machine) {instruction : Instruction}
    (here : machine.pc = place index) (listed : code[index]? = some instruction)
    (taken : instruction.exec image machine = some later) (pc : later.pc = place target)
    (same : Untouched machine later) : Arrives image reset machine later target where
  leads := .single guarded (by rw [step_at here listed guarded.mmu_off, taken])
  pc := pc
  memory := same.memory
  daif := same.daif
  level := .inl same.el
  controls := same.controls

theorem compare_arrives (guarded : Guarded image reset machine) {register : XReg} {value : UInt64}
    {label : Label} (here : machine.pc = place index)
    (compare : code[index]? = some (.cmpImmediate register value))
    (branch : code[index + 1]? = some (.bEq label)) :
    ∃ later, Arrives image reset machine later
        (if machine.x register == value then indexIn source label else index + 2) ∧
      later.el = machine.el ∧ later.x = machine.x := by
  let compared : Machine := { machine with
    z := machine.x register == value, c := value ≤ machine.x register }.advance
  have next : compared.pc = place (index + 1) := by
    have advanced : compared.pc = machine.pc + 4 := rfl
    rw [advanced, here, place_next]
  have first : Arrives image reset machine compared (index + 1) :=
    arrives_step guarded here compare rfl next ⟨rfl, rfl, rfl, rfl⟩
  have kept : Guarded image reset compared := first.guarded guarded
  by_cases equal : (machine.x register == value) = true
  · have taken : (Instruction.bEq label).exec image compared =
        some { compared with pc := place (indexIn source label) } := by
      rw [Instruction.exec, if_pos (show compared.z = true from equal)]
      rfl
    rw [if_pos equal]
    exact ⟨_, first.trans (arrives_step kept next branch taken rfl ⟨rfl, rfl, rfl, rfl⟩), rfl, rfl⟩
  · have taken : (Instruction.bEq label).exec image compared = some compared.advance := by
      rw [Instruction.exec, if_neg (show ¬ compared.z = true from equal)]
    have behind : compared.advance.pc = place (index + 2) := by
      have advanced : compared.advance.pc = compared.pc + 4 := rfl
      rw [advanced, next, place_next]
    rw [if_neg equal]
    exact ⟨_, first.trans (arrives_step kept next branch taken behind ⟨rfl, rfl, rfl, rfl⟩),
      rfl, rfl⟩

/-- Where the dispatch on the exception level goes. -/
def dispatched : ExceptionLevel → Nat
  | .el0 | .el3 => indexIn source .haltUnsupportedEl
  | .el1 => indexIn source .postEret
  | .el2 => indexIn source .el2ToEl1

theorem level_masked (level : ExceptionLevel) :
    currentEl level &&& (3 : UInt64) <<< 2 = currentEl level := by
  cases level <;> decide

theorem level_number (level : ExceptionLevel) :
    (currentEl level == (2 : UInt64) <<< 2) = (level == .el2) ∧
      (currentEl level == (1 : UInt64) <<< 2) = (level == .el1) := by
  cases level <;> decide

theorem dispatch_arrives (guarded : Guarded image reset machine) (here : machine.pc = place 1)
    (level : machine.el ≠ .el0) :
    ∃ later, Arrives image reset machine later (dispatched machine.el) ∧
      later.el = machine.el := by
  have above : ExceptionLevel.el1.number ≤ machine.el.number := by
    cases same : machine.el with
    | el0 => exact absurd same level
    | el1 | el2 | el3 => decide
  let loaded : Machine := ((machine.setX 0 (currentEl machine.el)).advance.setX 0
    (currentEl machine.el)).advance
  have read : execAll image [.mrsCurrentEl 0, .andImmediate 0 0 ((3 : UInt64) <<< 2)] machine =
      some loaded := by
    rw [execAll, Instruction.exec, Machine.fromLevel, if_pos above, Option.bind_some, execAll,
      Instruction.exec, Option.bind_some, execAll, Machine.advance_x, Machine.setX_self,
      level_masked]
  have value : loaded.x 0 = currentEl machine.el := by simp [loaded]
  have first := arrives_block guarded here read ⟨_, rfl⟩ (by decide)
  rcases compare_arrives (first.guarded guarded) first.pc rfl rfl with
    ⟨second, secondArrives, secondLevel, secondX⟩
  have two := first.trans secondArrives
  rw [value, (level_number _).1] at two
  cases same : machine.el with
  | el0 => exact absurd same level
  | el2 =>
      rw [same] at two
      exact ⟨second, two, secondLevel.trans same⟩
  | el1 | el3 =>
      rw [same] at two
      rcases compare_arrives (two.guarded guarded) two.pc rfl rfl with
        ⟨third, thirdArrives, thirdLevel, _⟩
      have three := two.trans thirdArrives
      rw [secondX, value, (level_number _).2, same] at three
      exact ⟨third, three, thirdLevel.trans (secondLevel.trans same)⟩

theorem drop_arrives (guarded : Guarded image reset machine)
    (here : machine.pc = place (indexIn source .el2ToEl1)) (level : machine.el = .el2) :
    ∃ later, Arrives image reset machine later (indexIn source .postEret) ∧
      later.el = .el1 ∧ later.spSel = true ∧ later.hcrEl2 = (1 : UInt64) <<< 31 := by
  obtain ⟨prepared, ready, sameLevel, hcr, spsr, elr⟩ : ∃ prepared : Machine,
      execAll image [.mov 0 ((1 : UInt64) <<< 31), .msrHcrEl2 0, .mov 0 0x3c5, .msrSpsrEl2 0,
        .adrp 0 (.label .postEret), .addLo12 0 0 (.label .postEret), .msrElrEl2 0] machine =
        some prepared ∧ prepared.el = .el2 ∧ prepared.hcrEl2 = (1 : UInt64) <<< 31 ∧
      prepared.spsrEl2 = 0x3c5 ∧ prepared.elrEl2 = place (indexIn source .postEret) := by
    simp [execAll, Instruction.exec, Machine.fromLevel, Machine.setX, Machine.advance, level,
      ExceptionLevel.number, Image.address]
  have first := arrives_block guarded here ready ⟨_, rfl⟩ (by decide)
  have target : returnsTo prepared.hcrEl2 prepared.spsrEl2 = some (.el1, true) := by
    rw [hcr, spsr]
    decide
  have mask : BitVec.ofNat 4 (prepared.spsrEl2.toNat / 64) = 0xf := by
    rw [spsr]
    decide
  let returned : Machine := { prepared with
    el := .el1, spSel := true, daif := 0xf, pc := prepared.elrEl2
    cpacrInEffect := prepared.cpacrEl1 }
  have taken : Instruction.eret.exec image prepared = some returned := by
    rw [Instruction.exec, sameLevel, target, mask]
    rfl
  have kept : Guarded image reset prepared := first.guarded guarded
  have lands : Arrives image reset prepared returned (indexIn source .postEret) :=
    ⟨.single kept (by rw [step_at first.pc rfl kept.mmu_off, taken]), elr, rfl,
      kept.masked.symm, .inr rfl, rfl⟩
  exact ⟨returned, first.trans lands, rfl, rfl, hcr⟩

theorem setup_arrives (guarded : Guarded image reset machine)
    (here : machine.pc = place (indexIn source .postEret)) (level : machine.el = .el1)
    (allowed : machine.controls.trapsCpacr .el1 = false) :
    ∃ later, Arrives image reset machine later (indexIn source .local0) ∧
      later.el = .el1 ∧ later.spSel = machine.spSel ∧ later.hcrEl2 = machine.hcrEl2 ∧
      later.sp = UInt64.ofNat image.stackTop ∧ later.cpacrInEffect = 0x300000 ∧
      later.x 0 = UInt64.ofNat image.bssStart ∧ later.x 1 = UInt64.ofNat image.bssEnd := by
  obtain ⟨prepared, ready, rest⟩ : ∃ prepared : Machine,
      execAll image [.adrp 0 .stackTop, .addLo12 0 0 .stackTop, .movToSp 0, .mov 0 0x300000,
        .msrCpacrEl1 0, .isb, .adrp 0 .bssStart, .addLo12 0 0 .bssStart, .adrp 1 .bssEnd,
        .addLo12 1 1 .bssEnd] machine = some prepared ∧
      prepared.el = .el1 ∧ prepared.spSel = machine.spSel ∧ prepared.hcrEl2 = machine.hcrEl2 ∧
      prepared.sp = UInt64.ofNat image.stackTop ∧ prepared.cpacrInEffect = 0x300000 ∧
      prepared.x 0 = UInt64.ofNat image.bssStart ∧ prepared.x 1 = UInt64.ofNat image.bssEnd := by
    simp [execAll, Instruction.exec, Machine.fromLevel, Machine.setX, Machine.advance, level,
      allowed, ExceptionLevel.number, Image.address, Machine.sp, Machine.selected]
  exact ⟨prepared, arrives_block guarded here ready ⟨_, rfl⟩ (by decide), rest⟩

/-- Where `boot.s` writes `CPACR_EL1`. -/
def cpacrWrite : Nat := indexIn source .postEret + 4

theorem write_refused (guarded : Guarded image reset machine)
    (here : machine.pc = place (indexIn source .postEret)) (level : machine.el = .el1)
    (refused : machine.controls.trapsCpacr .el1 = true) :
    ∃ stuck, Arrives image reset machine stuck cpacrWrite ∧ step image stuck = none := by
  obtain ⟨prepared, ready, sameLevel, sameControls⟩ : ∃ prepared : Machine,
      execAll image [.adrp 0 .stackTop, .addLo12 0 0 .stackTop, .movToSp 0, .mov 0 0x300000]
        machine = some prepared ∧ prepared.el = .el1 ∧ prepared.controls = machine.controls := by
    simp [execAll, Instruction.exec, Machine.setX, Machine.advance, level]
  have arrives : Arrives image reset machine prepared cpacrWrite :=
    arrives_block guarded here ready ⟨_, rfl⟩ (by decide)
  refine ⟨prepared, arrives, ?_⟩
  rw [step_at arrives.pc rfl (arrives.guarded guarded).mmu_off, Instruction.exec, sameLevel,
    sameControls, refused, if_pos rfl]

/-- One round of the loop clears a word, unless the end is reached. -/
structure Clearing (image : Image) (reset : Reset) (entered : Machine) (left : Nat)
    (machine : Machine) : Prop where
  pc : machine.pc = place (indexIn source .local0)
  pointer : (machine.x 0).toNat + 8 * left = image.bssEnd
  above : image.bssStart ≤ (machine.x 0).toNat
  aligned : (machine.x 0).toNat % 8 = 0
  limit : machine.x 1 = UInt64.ofNat image.bssEnd
  memory : machine.memory = cleared reset.machine.memory image.bssStart (machine.x 0).toNat
  rest : machine =
    { entered with
      x := machine.x
      pc := machine.pc
      z := machine.z
      c := machine.c
      memory := machine.memory }

theorem bss_end_toNat (image : Image) : (UInt64.ofNat image.bssEnd).toNat = image.bssEnd := by
  have inRam := image.inRam
  apply UInt64.toNat_ofNat_of_lt'
  simp only [UInt64.size, ramOrigin, ramLength] at *
  omega

theorem Clearing.guarded {entered : Machine} {left : Nat}
    (clearing : Clearing image reset entered left machine)
    (guarded : Guarded image reset entered) : Guarded image reset machine where
  masked := by
    rw [clearing.rest]
    exact guarded.masked
  outside := by
    intro address apart
    have pointer := clearing.pointer
    rw [clearing.memory]
    exact cleared_outside (by omega)
  level := by
    rw [clearing.rest]
    exact guarded.level
  controls := by
    rw [clearing.rest]
    exact guarded.controls

def nextRound (machine : Machine) : Machine :=
  { machine with
    x := Function.update machine.x 0 (machine.x 0 + 8)
    z := machine.x 0 == machine.x 1
    c := false
    pc := place (indexIn source .local0)
    memory := store machine.memory (machine.x 0).toNat 0 }

theorem Clearing.advanced {entered : Machine} {left : Nat}
    (clearing : Clearing image reset entered (left + 1) machine) :
    Clearing image reset entered left (nextRound machine) := by
  have pointer := clearing.pointer
  have above := clearing.above
  have aligned := clearing.aligned
  have inRam := image.inRam
  have next : ((nextRound machine).x 0).toNat = (machine.x 0).toNat + 8 := by
    have eight : (8 : UInt64).toNat = 8 := rfl
    have value : (nextRound machine).x 0 = machine.x 0 + 8 := by simp [nextRound]
    rw [value, UInt64.toNat_add, eight]
    simp only [ramOrigin, ramLength] at inRam
    omega
  constructor
  · rfl
  · omega
  · omega
  · omega
  · rw [← clearing.limit]
    rfl
  · have stored : (nextRound machine).memory =
        store (cleared reset.machine.memory image.bssStart (machine.x 0).toNat) (machine.x 0).toNat 0 := by
      rw [← clearing.memory]
      rfl
    rw [stored, next, store_zero above]
  · have rest := clearing.rest
    rw [nextRound]
    conv_lhs => rw [rest]

theorem round_clears {entered : Machine} {left : Nat} (before : Guarded image reset entered)
    (clearing : Clearing image reset entered (left + 1) machine) :
    ∃ later, Leads (step image) (Guarded image reset) machine later ∧
      Clearing image reset entered left later := by
  have guarded := clearing.guarded before
  have off := guarded.mmu_off
  have again := clearing.advanced
  have pointer := clearing.pointer
  have limit : (machine.x 1).toNat = image.bssEnd := by rw [clearing.limit, bss_end_toNat]
  have below : ¬ machine.x 1 ≤ machine.x 0 := by
    rw [UInt64.le_iff_toNat_le]
    omega
  have pc : machine.pc = place 27 := clearing.pc
  let compared : Machine := { machine with
    z := machine.x 0 == machine.x 1
    c := false
    pc := place 28 }
  have compares : step image machine = some compared := by
    rw [step_at pc rfl off]
    simp [Instruction.exec, Machine.advance, pc, place_next, below, compared]
  have passes : step image compared = some { compared with pc := place 29 } := by
    rw [step_at (show compared.pc = place 28 from rfl) rfl off]
    simp [Instruction.exec, Machine.advance, place_next, compared]
  have stores : step image { compared with pc := place 29 } =
      some { nextRound machine with pc := place 30 } := by
    rw [step_at (show ({ compared with pc := place 29 } : Machine).pc = place 29 from rfl) rfl off]
    simp [Instruction.exec, Machine.advance, Machine.setX, place_next, compared, nextRound,
      clearing.aligned]
  have returns : step image { nextRound machine with pc := place 30 } = some (nextRound machine) := by
    rw [step_at
      (show ({ nextRound machine with pc := place 30 } : Machine).pc = place 30 from rfl) rfl off]
    rfl
  have kept : Guarded image reset compared := guarded.same ⟨rfl, rfl, rfl, rfl⟩
  have cleared : Guarded image reset (nextRound machine) := again.guarded before
  exact ⟨nextRound machine, .step guarded compares (.step kept passes
    (.step (kept.same ⟨rfl, rfl, rfl, rfl⟩) stores (.single (cleared.same ⟨rfl, rfl, rfl, rfl⟩) returns))), again⟩

theorem loop_arrives (guarded : Guarded image reset machine)
    (here : machine.pc = place (indexIn source .local0)) (same : machine.memory = reset.machine.memory)
    (pointer : machine.x 0 = UInt64.ofNat image.bssStart)
    (limit : machine.x 1 = UInt64.ofNat image.bssEnd) :
    ∃ last, Leads (step image) (Guarded image reset) machine last ∧
      Clearing image reset machine 0 last := by
  have inRam := image.inRam
  have ordered := image.ordered
  have startAligned := image.startAligned
  have endAligned := image.endAligned
  have start : (machine.x 0).toNat = image.bssStart := by
    rw [pointer]
    apply UInt64.toNat_ofNat_of_lt'
    simp only [UInt64.size, ramOrigin, ramLength] at *
    omega
  have entered : Clearing image reset machine ((image.bssEnd - image.bssStart) / 8) machine := by
    refine ⟨here, by omega, by omega, by omega, limit, ?_, rfl⟩
    rw [start, cleared_none, same]
  exact Leads.loop (fun _ done => done) (fun _ _ => round_clears guarded) _ entered

theorem leave_loop {entered : Machine} (before : Guarded image reset entered)
    (clearing : Clearing image reset entered 0 machine) :
    ∃ final, Leads (step image) (Guarded image reset) machine final ∧
      final.pc = UInt64.ofNat image.kernelEntry ∧
      final.x 30 = place (indexIn source .local2) ∧
      final.memory = cleared reset.machine.memory image.bssStart image.bssEnd ∧
      final = { entered with
        x := final.x
        pc := final.pc
        z := final.z
        c := final.c
        memory := final.memory } := by
  have guarded := clearing.guarded before
  have off := guarded.mmu_off
  have pointer : (machine.x 0).toNat = image.bssEnd := clearing.pointer
  have equal : machine.x 1 = machine.x 0 := by
    rw [clearing.limit, ← pointer, UInt64.ofNat_toNat]
  have pc : machine.pc = place 27 := clearing.pc
  let compared : Machine := { machine with
    z := machine.x 0 == machine.x 1
    c := true
    pc := place 28 }
  have compares : step image machine = some compared := by
    rw [step_at pc rfl off]
    simp [Instruction.exec, Machine.advance, pc, place_next, equal, compared]
  let left : Machine := { compared with pc := place (indexIn source .local1) }
  have leaves : step image compared = some left := by
    rw [step_at (show compared.pc = place 28 from rfl) rfl off]
    rfl
  let called : Machine := { left.setX 30 (left.pc + 4) with pc := UInt64.ofNat image.kernelEntry }
  have calls : step image left = some called := by
    rw [step_at (show left.pc = place 31 from rfl) rfl off]
    rfl
  have kept : Guarded image reset compared := guarded.same ⟨rfl, rfl, rfl, rfl⟩
  refine ⟨called, .step guarded compares (.step kept leaves (.single (kept.same ⟨rfl, rfl, rfl, rfl⟩) calls)),
    rfl, ?_, ?_, ?_⟩
  · have link : called.x 30 = left.pc + 4 := by simp [called, Machine.setX]
    rw [link]
    exact place_next 31
  · rw [← pointer]
    exact clearing.memory
  · have rest := clearing.rest
    simp only [called, left, compared, Machine.setX]
    conv_lhs => rw [rest]

end Blocks

/-! ## Halting -/

section Halting

variable {image : Image} {machine : Machine}

/-- In the two instructions of a `wfe` loop, with everything else as it was. -/
def Halted (label : Label) (machine state : Machine) : Prop :=
  state = { machine with pc := place (indexIn source label) } ∨
    state = { machine with pc := place (indexIn source label + 1) }

theorem halt_steps {label : Label} {state : Machine}
    (wait : code[indexIn source label]? = some .wfe)
    (back : code[indexIn source label + 1]? = some (.b label))
    (off : machine.controls.mmuOn machine.el = false)
    (halted : Halted label machine state) :
    ∃ later, step image state = some later ∧ Halted label machine later := by
  have there : ∀ index, ({ machine with pc := place index } : Machine).pc = place index :=
    fun _ => rfl
  rcases halted with rfl | rfl
  · refine ⟨_, ?_, .inr rfl⟩
    rw [step_at (there _) wait off, Instruction.exec, Machine.advance, place_next]
  · refine ⟨_, ?_, .inl rfl⟩
    rw [step_at (there _) back off]
    rfl

theorem halt_stays {label : Label} (wait : code[indexIn source label]? = some .wfe)
    (back : code[indexIn source label + 1]? = some (.b label))
    (off : machine.controls.mmuOn machine.el = false)
    (here : machine.pc = place (indexIn source label)) (count : Nat) :
    ∃ state, after (step image) count machine = some state ∧ Halted label machine state := by
  have inside : Halted label machine machine := by
    left
    rw [← here]
  exact stays (fun _ => halt_steps wait back off) inside count

end Halting

/-! ## Results -/

/-- How `kernel_entry` finds the machine. -/
structure Ready (image : Image) (reset final : Machine) : Prop where
  el : final.el = .el1
  daif : final.daif = 0xf
  sp : final.sp = UInt64.ofNat image.stackTop
  cpacr : final.cpacrInEffect = 0x300000
  fp : final.fpEnabled = !reset.controls.trapsFp
  bss : final.memory = cleared reset.memory image.bssStart image.bssEnd
  link : final.x 30 = place (indexIn source .local2)
  dropped : reset.el = .el2 → final.spSel = true ∧ final.hcrEl2 = (1 : UInt64) <<< 31

section Results

variable {image : Image} {reset : Reset} {machine : Machine}

theorem first_masks (image : Image) (reset : Reset) :
    ∃ masked : Machine, step image reset.machine = some masked ∧ masked.pc = place 1 ∧
      masked.el = reset.machine.el ∧ masked.memory = reset.machine.memory ∧
      Guarded image reset masked := by
  have above : ExceptionLevel.el1.number ≤ reset.machine.el.number := by
    cases same : reset.machine.el with
    | el0 => exact absurd same reset.level
    | el1 | el2 | el3 => decide
  refine ⟨{ reset.machine with daif := reset.machine.daif ||| 0xf }.advance, ?_, ?_, rfl, rfl,
    BitVec.or_allOnes, fun _ _ => rfl, .inl rfl, rfl⟩
  · rw [step_at reset.atVector rfl reset.mmuOff, Instruction.exec, Machine.fromLevel,
      if_pos above]
  · rw [Machine.advance, reset.atVector, place_next]

theorem enters_from_post_eret (guarded : Guarded image reset machine)
    (here : machine.pc = place (indexIn source .postEret)) (level : machine.el = .el1)
    (same : machine.memory = reset.machine.memory)
    (allowed : reset.machine.controls.trapsCpacr .el1 = false) :
    ∃ final, Leads (step image) (Guarded image reset) machine final ∧
      final.pc = UInt64.ofNat image.kernelEntry ∧ final.el = .el1 ∧
      Guarded image reset final ∧ final.sp = UInt64.ofNat image.stackTop ∧
      final.cpacrInEffect = 0x300000 ∧
      final.memory = cleared reset.machine.memory image.bssStart image.bssEnd ∧
      final.x 30 = place (indexIn source .local2) ∧ final.spSel = machine.spSel ∧
      final.hcrEl2 = machine.hcrEl2 := by
  rw [← guarded.controls] at allowed
  rcases setup_arrives guarded here level allowed with
    ⟨prepared, arrives, el, spSel, hcr, sp, cpacr, pointer, limit⟩
  have kept : Guarded image reset prepared := arrives.guarded guarded
  rcases loop_arrives kept arrives.pc (arrives.memory.trans same) pointer limit with
    ⟨last, rounds, done⟩
  rcases leave_loop kept done with ⟨final, leaves, pc, link, bss, rest⟩
  refine ⟨final, arrives.leads.trans (rounds.trans leaves), pc, ?_, ⟨?_, ?_, ?_, ?_⟩, ?_, ?_,
    bss, link, ?_, ?_⟩
  · rw [rest]
    exact el
  · rw [rest]
    exact kept.masked
  · intro address apart
    rw [bss]
    exact cleared_outside apart
  · rw [rest]
    exact kept.level
  · rw [rest]
    exact kept.controls
  · rw [rest]
    exact sp
  · rw [rest]
    exact cpacr
  · rw [rest]
    exact spSel
  · rw [rest]
    exact hcr

theorem fp_enabled {final : Machine} (guarded : Guarded image reset final)
    (cpacr : final.cpacrInEffect = 0x300000) :
    final.fpEnabled = !reset.machine.controls.trapsFp := by
  have allowed : (0x300000 : UInt64).toNat.testBit 20 = true := by decide
  rw [Machine.fpEnabled, cpacr, allowed, guarded.controls, Bool.true_and]

/-- Up to the call of the kernel, to the write of `CPACR_EL1` if that is refused, or to the
halt of an unsupported level. -/
inductive Course (image : Image) (reset : Reset) (masked : Machine) : Prop where
  | enters (final : Machine) (supported : reset.machine.el = .el1 ∨ reset.machine.el = .el2)
      (allowed : reset.machine.controls.trapsCpacr .el1 = false)
      (leads : Leads (step image) (Guarded image reset) masked final)
      (pc : final.pc = UInt64.ofNat image.kernelEntry) (ready : Ready image reset.machine final)
      (guarded : Guarded image reset final)
  | stops (stuck : Machine) (supported : reset.machine.el = .el1 ∨ reset.machine.el = .el2)
      (refused : reset.machine.controls.trapsCpacr .el1 = true)
      (leads : Leads (step image) (Guarded image reset) masked stuck)
      (pc : stuck.pc = place cpacrWrite) (stopped : step image stuck = none)
      (guarded : Guarded image reset stuck)
  | halts (halted : Machine) (unsupported : reset.machine.el = .el3)
      (leads : Leads (step image) (Guarded image reset) masked halted)
      (pc : halted.pc = place (indexIn source .haltUnsupportedEl))
      (guarded : Guarded image reset halted)

theorem course_from_post_eret {masked : Machine} (guarded : Guarded image reset machine)
    (supported : reset.machine.el = .el1 ∨ reset.machine.el = .el2)
    (before : Leads (step image) (Guarded image reset) masked machine)
    (here : machine.pc = place (indexIn source .postEret)) (level : machine.el = .el1)
    (same : machine.memory = reset.machine.memory)
    (dropped : reset.machine.el = .el2 →
      machine.spSel = true ∧ machine.hcrEl2 = (1 : UInt64) <<< 31) :
    Course image reset masked := by
  cases which : reset.machine.controls.trapsCpacr .el1 with
  | false =>
      rcases enters_from_post_eret guarded here level same which with
        ⟨final, leads, entry, el, kept, sp, cpacr, bss, link, spSel, hcr⟩
      refine .enters final supported which (before.trans leads) entry
        ⟨el, kept.masked, sp, cpacr, fp_enabled kept cpacr, bss, link, ?_⟩ kept
      intro higher
      rw [spSel, hcr]
      exact dropped higher
  | true =>
      rw [← guarded.controls] at which
      rcases write_refused guarded here level which with ⟨stuck, arrives, stopped⟩
      rw [guarded.controls] at which
      exact .stops stuck supported which (before.trans arrives.leads) arrives.pc stopped
        (arrives.guarded guarded)

theorem course (image : Image) (reset : Reset) :
    ∃ masked, step image reset.machine = some masked ∧ Course image reset masked := by
  rcases first_masks image reset with ⟨masked, first, pc, level, memory, guarded⟩
  refine ⟨masked, first, ?_⟩
  have notUser : masked.el ≠ .el0 := fun user => reset.level (level.symm.trans user)
  rcases dispatch_arrives guarded pc notUser with ⟨there, arrives, same⟩
  have kept := arrives.guarded guarded
  have untouched : there.memory = reset.machine.memory := arrives.memory.trans memory
  rw [level] at arrives same
  cases which : reset.machine.el with
  | el0 => exact absurd which reset.level
  | el1 =>
      rw [which] at arrives same
      apply course_from_post_eret kept (.inl which) arrives.leads arrives.pc same untouched
      intro other
      rw [which] at other
      cases other
  | el2 =>
      rw [which] at arrives same
      rcases drop_arrives kept arrives.pc same with ⟨dropped, lower, one, spSel, hcr⟩
      exact course_from_post_eret (lower.guarded kept) (.inr which)
        (arrives.leads.trans lower.leads) lower.pc one (lower.memory.trans untouched)
        fun _ => ⟨spSel, hcr⟩
  | el3 =>
      rw [which] at arrives
      exact .halts there which arrives.leads arrives.pc kept

theorem entry_outside (image : Image) : fetch (UInt64.ofNat image.kernelEntry) = none := by
  have behind := image.behindBoot
  have bound : image.kernelEntry < UInt64.size := by
    have inText := image.inText
    have ordered := image.ordered
    have inRam := image.inRam
    simp only [UInt64.size, ramOrigin, ramLength] at *
    omega
  have beyond : code.length ≤ (image.kernelEntry - ramOrigin) / 4 := by omega
  rw [fetch, UInt64.toNat_ofNat_of_lt' bound]
  split
  · rw [List.getElem?_eq_none beyond]
  · rfl

theorem entry_stops (entered : machine.pc = UInt64.ofNat image.kernelEntry) :
    step image machine = none := by
  rw [step, entered, entry_outside]
  split <;> rfl

theorem write_listed : fetch (place cpacrWrite) = some (.msrCpacrEl1 0) := rfl

theorem after_stop {count : Nat} {state : Machine} (stopped : step image machine = none)
    (reached : after (step image) count machine = some state) : state = machine := by
  cases count with
  | zero => exact (Option.some.inj reached).symm
  | succ count =>
      rw [after, stopped] at reached
      cases reached

/-- The kernel has been called, and is allowed to be. -/
structure Entered (image : Image) (reset : Reset) (state : Machine) : Prop where
  supported : reset.machine.el = .el1 ∨ reset.machine.el = .el2
  allowed : reset.machine.controls.trapsCpacr .el1 = false
  pc : state.pc = UInt64.ofNat image.kernelEntry
  ready : Ready image reset.machine state

/-- The write of `CPACR_EL1` has trapped to a level above. -/
structure Refused (image : Image) (reset : Reset) (state : Machine) : Prop where
  supported : reset.machine.el = .el1 ∨ reset.machine.el = .el2
  refused : reset.machine.controls.trapsCpacr .el1 = true
  pc : state.pc = place cpacrWrite
  stopped : step image state = none

theorem returned_kernel_halts {final returned : Machine}
    (ready : Ready image reset.machine final) (link : returned.pc = final.x 30)
    (off : returned.controls.mmuOn returned.el = false) (count : Nat) :
    ∃ state, after (step image) count returned = some state ∧ Halted .local2 returned state :=
  halt_stays rfl rfl off (link.trans ready.link) count

theorem halted_guarded {label : Label} {state : Machine}
    (guarded : Guarded image reset machine) (halted : Halted label machine state) :
    Guarded image reset state := by
  rcases halted with rfl | rfl
  · exact guarded.same ⟨rfl, rfl, rfl, rfl⟩
  · exact guarded.same ⟨rfl, rfl, rfl, rfl⟩

/-- Every state behind the first instruction is guarded, and has a next one unless the
kernel has been called or the write of `CPACR_EL1` has trapped. -/
theorem passing {count : Nat} {state : Machine}
    (reached : after (step image) (count + 1) reset.machine = some state) :
    Guarded image reset state ∧
      ((∃ later, step image state = some later) ∨ Entered image reset state ∨
        Refused image reset state) := by
  rcases course image reset with ⟨masked, first, which⟩
  rw [after, first, Option.bind_some] at reached
  cases which with
  | enters final supported allowed leads pc ready guarded =>
      rcases leads.covers reached with ⟨good, goesOn⟩ | ⟨further, behind⟩
      · exact ⟨good, .inl goesOn⟩
      · cases after_stop (entry_stops pc) behind
        exact ⟨guarded, .inr (.inl ⟨supported, allowed, pc, ready⟩)⟩
  | stops stuck supported refused leads pc stopped guarded =>
      rcases leads.covers reached with ⟨good, goesOn⟩ | ⟨further, behind⟩
      · exact ⟨good, .inl goesOn⟩
      · cases after_stop stopped behind
        exact ⟨guarded, .inr (.inr ⟨supported, refused, pc, stopped⟩)⟩
  | halts halted unsupported leads pc guarded =>
      rcases leads.covers reached with ⟨good, goesOn⟩ | ⟨further, behind⟩
      · exact ⟨good, .inl goesOn⟩
      · rcases @halt_stays image halted .haltUnsupportedEl rfl rfl guarded.mmu_off pc further with
          ⟨same, there, inside⟩
        cases there.symm.trans behind
        rcases @halt_steps image halted .haltUnsupportedEl _ rfl rfl guarded.mmu_off inside with
          ⟨later, next, _⟩
        exact ⟨halted_guarded guarded inside, .inl ⟨later, next⟩⟩

/-- From every level but EL0 at reset, with the MMU off and otherwise whatever registers and
memory: the kernel is called exactly from EL1 and EL2 with `TCPAC` clear above, and always at
EL1, with everything masked, on its own stack, with floating point enabled as far as EL1 can
enable it, on a BSS of zeros and all other memory as loaded. -/
theorem boot_hands_over (image : Image) (reset : Reset) :
    ((∃ count state, after (step image) count reset.machine = some state ∧
        state.pc = UInt64.ofNat image.kernelEntry) ↔
      (reset.machine.el = .el1 ∨ reset.machine.el = .el2) ∧
        reset.machine.controls.trapsCpacr .el1 = false) ∧
    ∀ count state, after (step image) count reset.machine = some state →
      state.pc = UInt64.ofNat image.kernelEntry → Ready image reset.machine state := by
  have entered : ∀ count state, after (step image) count reset.machine = some state →
      state.pc = UInt64.ofNat image.kernelEntry → Entered image reset state := by
    intro count state reached pc
    have stopped := entry_stops pc
    cases count with
    | zero =>
        cases reached
        rcases first_masks image reset with ⟨masked, first, _⟩
        rw [stopped] at first
        cases first
    | succ count =>
        rcases (passing reached).2 with ⟨later, next⟩ | done | refused
        · rw [stopped] at next
          cases next
        · exact done
        · have listed := write_listed
          rw [← refused.pc, pc, entry_outside] at listed
          cases listed
  constructor
  · constructor
    · rintro ⟨count, state, reached, pc⟩
      have there := entered count state reached pc
      exact ⟨there.supported, there.allowed⟩
    · rintro ⟨supported, allowed⟩
      rcases course image reset with ⟨masked, first, which⟩
      cases which with
      | enters final _ _ leads pc _ _ =>
          rcases leads.reaches with ⟨count, reached⟩
          exact ⟨count + 1, final, by rw [after, first, Option.bind_some, reached], pc⟩
      | stops _ _ refused _ _ _ _ =>
          rw [refused] at allowed
          cases allowed
      | halts _ unsupported _ _ _ =>
          rw [unsupported] at supported
          rcases supported with wrong | wrong <;> cases wrong
  · intro count state reached pc
    exact (entered count state reached pc).ready

/-- On every path interrupts are masked from the first instruction on, nothing outside the
BSS is written, and no instruction traps but the write of `CPACR_EL1`, which does where a
level above has `TCPAC` set. -/
theorem boot_is_safe (image : Image) (reset : Reset) (count : Nat) (state : Machine)
    (reached : after (step image) count reset.machine = some state) :
    (0 < count → state.daif = 0xf) ∧
      (∀ address, address < image.bssStart ∨ image.bssEnd ≤ address →
        state.memory address = reset.machine.memory address) ∧
      (state.pc = UInt64.ofNat image.kernelEntry ∨ (∃ later, step image state = some later) ∨
        fetch state.pc = some (.msrCpacrEl1 0) ∧
          reset.machine.controls.trapsCpacr .el1 = true ∧
          (reset.machine.el = .el1 ∨ reset.machine.el = .el2)) := by
  cases count with
  | zero =>
      cases reached
      rcases first_masks image reset with ⟨masked, first, _⟩
      exact ⟨fun positive => absurd positive (Nat.lt_irrefl 0), fun _ _ => rfl,
        .inr (.inl ⟨masked, first⟩)⟩
  | succ count =>
      rcases passing reached with ⟨guarded, goesOn | done | stopped⟩
      · exact ⟨fun _ => guarded.masked, guarded.outside, .inr (.inl goesOn)⟩
      · exact ⟨fun _ => guarded.masked, guarded.outside, .inl done.pc⟩
      · refine ⟨fun _ => guarded.masked, guarded.outside,
          .inr (.inr ⟨?_, stopped.refused, stopped.supported⟩)⟩
        rw [stopped.pc]
        exact write_listed

end Results

/-! ## A machine that starts at EL2 -/

def smallImage : Image where
  kernelEntry := 0x40081000
  bssStart := 0x40090000
  bssEnd := 0x40090010
  behindBoot := by decide
  inText := by decide
  startAligned := by decide
  endAligned := by decide
  ordered := by decide
  inRam := by decide

/-- Every bit of memory is set and nothing is masked. -/
def virtualization : Reset where
  machine := {
    x := fun _ => 0
    spBank := fun _ => 0
    spSel := true
    pc := place 0
    el := .el2
    daif := 0
    z := false
    c := false
    hcrEl2 := 0
    spsrEl2 := 0
    elrEl2 := 0
    cpacrEl1 := 0
    cpacrInEffect := 0
    controls := ⟨fun _ => 0, 0, 0⟩
    memory := fun _ => 0xff }
  atVector := rfl
  level := by decide
  mmuOff := by decide
  mmuOffBelow := by decide

theorem boot_is_safe_at_el2 : ∃ state,
    after (step smallImage) 5 virtualization.machine = some state ∧
    (0 < 5 → state.daif = 0xf) ∧
    (∀ address, address < smallImage.bssStart ∨ smallImage.bssEnd ≤ address →
      state.memory address = virtualization.machine.memory address) ∧
    (state.pc = UInt64.ofNat smallImage.kernelEntry ∨
      (∃ later, step smallImage state = some later) ∨
      fetch state.pc = some (.msrCpacrEl1 0) ∧
        virtualization.machine.controls.trapsCpacr .el1 = true ∧
        (virtualization.machine.el = .el1 ∨ virtualization.machine.el = .el2)) :=
  ⟨_, rfl, boot_is_safe smallImage virtualization 5 _ rfl⟩

end Tyrne.Boot
