import Tyrne.Trampoline
import Tyrne.Lib.Stepping

/-!
# The vector table

`bsp-qemu-virt/src/vectors.s` as one piece of code: the sixteen entries, padded to 0x80
bytes, and the three trampolines behind them. An exception enters at the slot of its kind
and of the mode it was taken from. `panic_entry` is where the run of an unhandled exception
ends. The stack takes every store: no fault of the stack and no alignment check of `sp` is here.
-/

namespace Tyrne.Vectors

open Tyrne.Lib.ByteMemory
open Tyrne.Lib.Stepping
open Tyrne.Aarch64 (XReg)
open Tyrne.Trampoline (VReg)

set_option autoImplicit false

-- Registers are written as numerals.
local instance vectorsXReg : NeZero 31 := ⟨by decide⟩

/-! ## Exceptions -/

inductive Kind where
  | sync
  | irq
  | fiq
  | serror
  deriving DecidableEq, Repr

/-- The mode an exception is taken from. -/
inductive Source where
  | currElSp0
  | currElSpx
  | lowerElAArch64
  | lowerElAArch32
  deriving DecidableEq, Repr

def Kind.number : Kind → Nat
  | .sync => 0
  | .irq => 1
  | .fiq => 2
  | .serror => 3

def Source.number : Source → Nat
  | .currElSp0 => 0
  | .currElSpx => 1
  | .lowerElAArch64 => 2
  | .lowerElAArch32 => 3

def slotOf (source : Source) (kind : Kind) : Nat := 4 * source.number + kind.number

/-- What an exception can see or change. -/
structure Processor where
  x : XReg → UInt64
  spEl0 : UInt64
  spEl1 : UInt64
  v : VReg → BitVec 128
  elrEl1 : UInt64
  spsrEl1 : UInt64
  esrEl1 : UInt64
  vbarEl1 : UInt64
  pstate : UInt64
  pc : UInt64
  memory : Memory

/-- The mode, from `PSTATE.M`: EL1t, EL1h, EL0t, or the user mode of AArch32. -/
def sourceOf (pstate : UInt64) : Option Source :=
  match pstate.toNat % 32 with
  | 0b00100 => some .currElSp0
  | 0b00101 => some .currElSpx
  | 0b00000 => some .lowerElAArch64
  | 0b10000 => some .lowerElAArch32
  | _ => none

/-- The bits A, I and F of `PSTATE` hold an exception back. -/
def held (pstate : UInt64) : Kind → Bool
  | .sync => false
  | .irq => pstate.toNat.testBit 7
  | .fiq => pstate.toNat.testBit 6
  | .serror => pstate.toNat.testBit 8

/-- EL1h, everything masked; the flags stay. -/
def handlerPstate (pstate : UInt64) : UInt64 := (pstate &&& 0xF0000000) ||| 0x3C5

def enter (source : Source) (kind : Kind) (syndrome : UInt64) (processor : Processor) : Processor :=
  { processor with
    elrEl1 := processor.pc
    spsrEl1 := processor.pstate
    esrEl1 := if kind = .sync ∨ kind = .serror then syndrome else processor.esrEl1
    pstate := handlerPstate processor.pstate
    pc := processor.vbarEl1 + UInt64.ofNat (0x80 * slotOf source kind) }

def takeException (kind : Kind) (syndrome : UInt64) (processor : Processor) : Option Processor :=
  if held processor.pstate kind then none
  else (sourceOf processor.pstate).map fun source => enter source kind syndrome processor

/-! ## The code -/

inductive Handler where
  | tyrneIrqCurrElTrampoline
  | tyrneUnhandledExceptionTrampoline
  | tyrneUnhandledIrqTrampoline
  deriving DecidableEq, Repr

inductive Instruction where
  | b (target : Handler)
  /-- What `.balign` pads with. -/
  | nop
  | shared (instruction : Trampoline.Instruction)
  | mov (target : XReg) (value : UInt64)
  | mrsEsrEl1 (target : XReg)
  | blPanicEntry
  | wfe
  /-- `b 1b`, to the instruction before. -/
  | bBack
  deriving DecidableEq, Repr

def tyrneVectors : List Handler :=
  [ -- Current EL with SP_EL0
    .tyrneUnhandledExceptionTrampoline, .tyrneUnhandledIrqTrampoline,
    .tyrneUnhandledExceptionTrampoline, .tyrneUnhandledExceptionTrampoline,
    -- Current EL with SP_ELx
    .tyrneUnhandledExceptionTrampoline, .tyrneIrqCurrElTrampoline,
    .tyrneUnhandledExceptionTrampoline, .tyrneUnhandledExceptionTrampoline,
    -- Lower EL using AArch64
    .tyrneUnhandledExceptionTrampoline, .tyrneUnhandledIrqTrampoline,
    .tyrneUnhandledExceptionTrampoline, .tyrneUnhandledExceptionTrampoline,
    -- Lower EL using AArch32
    .tyrneUnhandledExceptionTrampoline, .tyrneUnhandledIrqTrampoline,
    .tyrneUnhandledExceptionTrampoline, .tyrneUnhandledExceptionTrampoline]

/-- `class`, as the trampolines of the unhandled exceptions pass it. -/
def unhandledTrampoline (panicClass : UInt64) : List Instruction :=
  [.shared (.subSp 16), .mov 0 panicClass, .mrsEsrEl1 1, .blPanicEntry, .wfe, .bBack]

def Handler.body : Handler → List Instruction
  | .tyrneIrqCurrElTrampoline => Trampoline.tyrneIrqCurrElTrampoline.map .shared
  | .tyrneUnhandledExceptionTrampoline => unhandledTrampoline 0
  | .tyrneUnhandledIrqTrampoline => unhandledTrampoline 1

def entry (handler : Handler) : List Instruction := .b handler :: List.replicate 31 .nop

def code : List Instruction :=
  tyrneVectors.flatMap entry ++ Handler.tyrneIrqCurrElTrampoline.body ++
    Handler.tyrneUnhandledExceptionTrampoline.body ++ Handler.tyrneUnhandledIrqTrampoline.body

def Handler.position : Handler → Nat
  | .tyrneIrqCurrElTrampoline => 32 * 16
  | .tyrneUnhandledExceptionTrampoline => 32 * 16 + 31
  | .tyrneUnhandledIrqTrampoline => 32 * 16 + 31 + 6

/-! ## The machine -/

namespace Processor

/-- What the trampoline sees, with `sp` the stack pointer of EL1. -/
def machine (processor : Processor) : Trampoline.Machine :=
  ⟨processor.x, processor.spEl1, processor.v, processor.elrEl1, processor.spsrEl1,
    processor.pstate, processor.pc, processor.memory⟩

def withMachine (processor : Processor) (machine : Trampoline.Machine) : Processor :=
  { processor with
    x := machine.x
    spEl1 := machine.sp
    v := machine.v
    elrEl1 := machine.elrEl1
    spsrEl1 := machine.spsrEl1
    pstate := machine.pstate
    pc := machine.pc
    memory := machine.memory }

def setX (processor : Processor) (target : XReg) (value : UInt64) : Processor :=
  { processor with x := Function.update processor.x target value }

def advance (processor : Processor) : Processor := { processor with pc := processor.pc + 4 }

end Processor

section Machine

variable (irqEntry : Trampoline.Machine → Trampoline.Machine) (panicEntry base : UInt64)

def place (index : Nat) : UInt64 := base + UInt64.ofNat (4 * index)

def fetch (pc : UInt64) : Option Instruction :=
  if (pc - base).toNat % 4 = 0 then code[(pc - base).toNat / 4]? else none

def Instruction.exec (processor : Processor) : Instruction → Processor
  | .b target => { processor with pc := place base target.position }
  | .nop => processor.advance
  | .shared instruction => processor.withMachine (instruction.exec irqEntry processor.machine)
  | .mov target value => (processor.setX target value).advance
  | .mrsEsrEl1 target => (processor.setX target processor.esrEl1).advance
  | .blPanicEntry => { processor.setX 30 (processor.pc + 4) with pc := panicEntry }
  | .wfe => processor.advance
  | .bBack => { processor with pc := processor.pc - 4 }

def step (processor : Processor) : Option Processor :=
  (fetch base processor.pc).map (Instruction.exec irqEntry panicEntry base processor)

end Machine

/-! ## Where things stand -/

theorem entry_length (handler : Handler) : (entry handler).length = 32 := by
  rw [entry, List.length_cons, List.length_replicate]

theorem entries_length (handlers : List Handler) :
    (handlers.flatMap entry).length = 32 * handlers.length := by
  induction handlers with
  | nil => rfl
  | cons handler rest ih =>
      rw [List.flatMap_cons, List.length_append, entry_length, ih, List.length_cons]
      omega

theorem entries_branch (handlers : List Handler) (slot : Nat) :
    slot < handlers.length →
      (handlers.flatMap entry)[32 * slot]? = handlers[slot]?.map Instruction.b := by
  induction handlers generalizing slot with
  | nil =>
      intro inside
      cases inside
  | cons handler rest ih =>
      intro inside
      rw [List.flatMap_cons]
      cases slot with
      | zero => rfl
      | succ slot =>
          have bound : slot < rest.length := Nat.lt_of_succ_lt_succ inside
          have far : (entry handler).length ≤ 32 * (slot + 1) := by
            rw [entry_length]
            omega
          have back : 32 * (slot + 1) - (entry handler).length = 32 * slot := by
            rw [entry_length]
            omega
          rw [List.getElem?_append_right far, back, ih slot bound, List.getElem?_cons_succ]

theorem slot_placed {slot : Nat} {handler : Handler} (listed : tyrneVectors[slot]? = some handler) :
    code[32 * slot]? = some (.b handler) := by
  have inside : slot < tyrneVectors.length := (List.getElem?_eq_some_iff.mp listed).1
  have first : 32 * slot < (tyrneVectors.flatMap entry).length := by
    rw [entries_length]
    omega
  rw [code, List.append_assoc, List.append_assoc, List.getElem?_append_left first,
    entries_branch tyrneVectors slot inside, listed, Option.map_some]

theorem handler_placed (handler : Handler) {index : Nat} {instruction : Instruction}
    (listed : handler.body[index]? = some instruction) :
    code[handler.position + index]? = some instruction := by
  have table : (tyrneVectors.flatMap entry).length = 32 * 16 := entries_length tyrneVectors
  have first : Handler.tyrneIrqCurrElTrampoline.body.length = 31 := rfl
  have second : Handler.tyrneUnhandledExceptionTrampoline.body.length = 6 := rfl
  have bound : index < handler.body.length := (List.getElem?_eq_some_iff.mp listed).1
  rw [code]
  cases handler with
  | tyrneIrqCurrElTrampoline =>
      rw [List.getElem?_append_left (by simp only [List.length_append, table, Handler.position]; omega),
        List.getElem?_append_left (by simp only [List.length_append, table, Handler.position]; omega),
        List.getElem?_append_right (by simp only [table, Handler.position]; omega)]
      simp only [table, Handler.position, Nat.add_sub_cancel_left]
      exact listed
  | tyrneUnhandledExceptionTrampoline =>
      rw [List.getElem?_append_left (by simp only [List.length_append, table, Handler.position]; omega),
        List.getElem?_append_right
          (by simp only [List.length_append, table, first, Handler.position]; omega)]
      simp only [List.length_append, table, first, Handler.position, Nat.add_sub_cancel_left]
      exact listed
  | tyrneUnhandledIrqTrampoline =>
      rw [List.getElem?_append_right
          (by simp only [List.length_append, table, first, second, Handler.position]; omega)]
      simp only [List.length_append, table, first, second, Handler.position, Nat.add_sub_cancel_left]
      exact listed

/-! ## Running it -/

theorem place_add (base : UInt64) (index : Nat) : place base index + 4 = place base (index + 1) := by
  have four : UInt64.ofNat (4 * (index + 1)) = UInt64.ofNat (4 * index) + 4 := by
    rw [Nat.mul_add, UInt64.ofNat_add]
    rfl
  rw [place, place, four, UInt64.add_assoc]

theorem fetch_place {base : UInt64} {index : Nat} {instruction : Instruction}
    (listed : code[index]? = some instruction) : fetch base (place base index) = some instruction := by
  have bound : index < code.length := (List.getElem?_eq_some_iff.mp listed).1
  have whole : code.length = 555 := by
    rw [code, List.length_append, List.length_append, List.length_append, entries_length]
    rfl
  have offset : (place base index - base).toNat = 4 * index := by
    rw [place, UInt64.add_comm, UInt64.add_sub_cancel]
    apply UInt64.toNat_ofNat_of_lt'
    rw [UInt64.size]
    omega
  have aligned : 4 * index % 4 = 0 := Nat.mul_mod_right 4 index
  have position : 4 * index / 4 = index := Nat.mul_div_cancel_left index (by decide)
  rw [fetch, offset, if_pos aligned, position]
  exact listed

section Steps

variable {irqEntry : Trampoline.Machine → Trampoline.Machine} {panicEntry base : UInt64}
  {processor : Processor}

theorem step_at {index : Nat} {instruction : Instruction} (here : processor.pc = place base index)
    (listed : code[index]? = some instruction) :
    step irqEntry panicEntry base processor =
      some (instruction.exec irqEntry panicEntry base processor) := by
  rw [step, here, fetch_place listed, Option.map_some]

/-- Instructions that go on behind themselves. -/
def straight : Trampoline.Instruction → Bool
  | .blIrqEntry | .eret => false
  | _ => true

theorem straight_pc {instruction : Trampoline.Instruction} (isStraight : straight instruction = true)
    (machine : Trampoline.Machine) : (instruction.exec irqEntry machine).pc = machine.pc + 4 := by
  cases instruction with
  | blIrqEntry => cases isStraight
  | eret => cases isStraight
  | _ => rfl

theorem leads_straight (program : List Trampoline.Instruction) {index : Nat}
    (here : processor.pc = place base index)
    (allStraight : ∀ instruction ∈ program, straight instruction = true)
    (placed : ∀ offset instruction, program[offset]? = some instruction →
      code[index + offset]? = some (.shared instruction)) :
    Leads (step irqEntry panicEntry base) (fun _ => True) processor
        (processor.withMachine (Trampoline.execute irqEntry program processor.machine)) ∧
      (Trampoline.execute irqEntry program processor.machine).pc =
        place base (index + program.length) := by
  induction program generalizing processor index with
  | nil => exact ⟨.refl _, here⟩
  | cons instruction rest ih =>
      have first := @step_at irqEntry panicEntry base processor index _ here (placed 0 instruction rfl)
      have next : (instruction.exec irqEntry processor.machine).pc = place base (index + 1) := by
        rw [straight_pc (allStraight instruction List.mem_cons_self), ← place_add, ← here]
        rfl
      have others : ∀ other ∈ rest, straight other = true :=
        fun other member => allStraight other (List.mem_cons_of_mem instruction member)
      have behind : ∀ offset other, rest[offset]? = some other →
          code[index + 1 + offset]? = some (.shared other) := by
        intro offset other listed
        rw [Nat.add_assoc, Nat.add_comm 1 offset]
        exact placed (offset + 1) other listed
      rcases @ih (processor.withMachine (instruction.exec irqEntry processor.machine)) _ next others
        behind with ⟨leads, arrives⟩
      constructor
      · exact .step trivial first leads
      · rw [List.length_cons, Nat.add_comm rest.length, ← Nat.add_assoc]
        exact arrives

end Steps

/-! ## Dispatch -/

/-- The interrupted code goes on as it was. The vector registers are those `irq_entry`, called
on them, has left. -/
structure Resumes (irqEntry : Trampoline.Machine → Trampoline.Machine)
    (interrupted resumed : Processor) : Prop where
  x : ∀ register, resumed.x register = interrupted.x register
  spEl0 : resumed.spEl0 = interrupted.spEl0
  spEl1 : resumed.spEl1 = interrupted.spEl1
  pc : resumed.pc = interrupted.pc
  pstate : resumed.pstate = interrupted.pstate
  vbarEl1 : resumed.vbarEl1 = interrupted.vbarEl1
  v : ∃ called, called.v = interrupted.v ∧ called.sp = interrupted.spEl1 - 192 ∧
    resumed.v = (irqEntry called).v

/-- `panic_entry` is called with the class of the exception and `ESR_EL1`. -/
structure Reports (panicEntry panicClass : UInt64) (interrupted entered called : Processor) :
    Prop where
  pc : called.pc = panicEntry
  classPassed : called.x 0 = panicClass
  esrPassed : called.x 1 = entered.esrEl1
  spEl1 : called.spEl1 = interrupted.spEl1 - 16
  elrEl1 : called.elrEl1 = interrupted.pc
  spsrEl1 : called.spsrEl1 = interrupted.pstate
  memory : called.memory = interrupted.memory

def handlerOf (source : Source) (kind : Kind) : Handler :=
  if kind = .irq then
    if source = .currElSpx then .tyrneIrqCurrElTrampoline else .tyrneUnhandledIrqTrampoline
  else .tyrneUnhandledExceptionTrampoline

theorem slot_handler (source : Source) (kind : Kind) :
    tyrneVectors[slotOf source kind]? = some (handlerOf source kind) := by
  cases source <;> cases kind <;> rfl

section Dispatch

variable {irqEntry : Trampoline.Machine → Trampoline.Machine} {panicEntry base : UInt64}
  {kind : Kind} {syndrome : UInt64} {interrupted entered : Processor} {source : Source}

theorem enter_branches (installed : interrupted.vbarEl1 = base) (source : Source) (kind : Kind)
    (syndrome : UInt64) :
    step irqEntry panicEntry base (enter source kind syndrome interrupted) =
      some { enter source kind syndrome interrupted with
        pc := place base (handlerOf source kind).position } := by
  have offset : 0x80 * slotOf source kind = 4 * (32 * slotOf source kind) := by omega
  have here : (enter source kind syndrome interrupted).pc = place base (32 * slotOf source kind) := by
    rw [place, ← offset, ← installed]
    rfl
  exact step_at here (slot_placed (slot_handler source kind))

theorem unhandled_placed {handler : Handler} {panicClass : UInt64}
    (body : handler.body = unhandledTrampoline panicClass) (index : Nat) (instruction : Instruction)
    (listed : (unhandledTrampoline panicClass)[index]? = some instruction) :
    code[handler.position + index]? = some instruction := by
  rw [← body] at listed
  exact handler_placed handler listed

theorem unhandled_leads {handler : Handler} {panicClass : UInt64}
    (body : handler.body = unhandledTrampoline panicClass) (processor : Processor)
    (here : processor.pc = place base handler.position) :
    ∃ called, Leads (step irqEntry panicEntry base)
        (fun passed => passed.pstate = processor.pstate) processor called ∧
      called.pc = panicEntry ∧ called.x 0 = panicClass ∧ called.x 1 = processor.esrEl1 ∧
      called.x 30 = place base (handler.position + 4) ∧
      called = { processor with
        x := called.x
        spEl1 := processor.spEl1 - 16
        pc := panicEntry } := by
  have placed := @unhandled_placed handler panicClass body
  have next : ∀ index, place base (handler.position + index) + 4 =
      place base (handler.position + (index + 1)) := fun index => place_add base _
  let reserved := { processor with spEl1 := processor.spEl1 - 16, pc := processor.pc + 4 }
  have first : step irqEntry panicEntry base processor = some reserved :=
    step_at here (placed 0 _ rfl)
  have firstPc : reserved.pc = place base (handler.position + 1) := by
    rw [← next 0, Nat.add_zero, ← here]
  let named := (reserved.setX 0 panicClass).advance
  have second : step irqEntry panicEntry base reserved = some named :=
    step_at firstPc (placed 1 _ rfl)
  have secondPc : named.pc = place base (handler.position + 2) := by
    rw [← next 1, ← firstPc]
    rfl
  let told := (named.setX 1 named.esrEl1).advance
  have third : step irqEntry panicEntry base named = some told :=
    step_at secondPc (placed 2 _ rfl)
  have thirdPc : told.pc = place base (handler.position + 3) := by
    rw [← next 2, ← secondPc]
    rfl
  let called := { told.setX 30 (told.pc + 4) with pc := panicEntry }
  have fourth : step irqEntry panicEntry base told = some called :=
    step_at thirdPc (placed 3 _ rfl)
  refine ⟨called, .step rfl first (.step rfl second (.step rfl third (.single rfl fourth))), rfl, ?_,
    ?_, ?_, rfl⟩
  · simp [called, told, named, Processor.setX, Processor.advance]
  · simp [called, told, named, reserved, Processor.setX, Processor.advance]
  · have back : called.x 30 = told.pc + 4 := by
      simp [called, Processor.setX]
    rw [back, thirdPc, next 3]

def Halted (base : UInt64) (handler : Handler) (processor : Processor) : Prop :=
  processor.pc = place base (handler.position + 4) ∨ processor.pc = place base (handler.position + 5)

/-- A call of `panic_entry` that came back would halt for good. -/
theorem returned_call_halts {handler : Handler} {panicClass : UInt64}
    (body : handler.body = unhandledTrampoline panicClass) {processor : Processor}
    (here : processor.pc = place base (handler.position + 4)) (count : Nat) :
    ∃ later, after (step irqEntry panicEntry base) count processor = some later ∧
      Halted base handler later := by
  have placed := @unhandled_placed handler panicClass body
  have next : place base (handler.position + 4) + 4 = place base (handler.position + 5) :=
    place_add base _
  have inside : Halted base handler processor := .inl here
  apply stays _ inside
  intro state halted
  rcases halted with atWfe | atBranch
  · refine ⟨_, step_at atWfe (placed 4 _ rfl), .inr ?_⟩
    rw [← next, ← atWfe]
    rfl
  · refine ⟨_, step_at atBranch (placed 5 _ rfl), .inl ?_⟩
    have back : state.pc - 4 = place base (handler.position + 4) := by
      rw [atBranch, ← next, UInt64.add_sub_cancel]
    exact back

section Trampoline

theorem trampoline_placed {index : Nat} {instruction : Trampoline.Instruction}
    (listed : Trampoline.tyrneIrqCurrElTrampoline[index]? = some instruction) :
    code[Handler.tyrneIrqCurrElTrampoline.position + index]? = some (.shared instruction) := by
  apply handler_placed
  rw [Handler.body, List.getElem?_map, listed, Option.map_some]

theorem save_placed {index : Nat} {instruction : Trampoline.Instruction}
    (listed : Trampoline.saveFrame[index]? = some instruction) :
    code[Handler.tyrneIrqCurrElTrampoline.position + index]? = some (.shared instruction) := by
  have inside := (List.getElem?_eq_some_iff.mp listed).1
  apply trampoline_placed
  rw [Trampoline.tyrneIrqCurrElTrampoline, List.append_assoc, List.append_assoc,
    List.getElem?_append_left inside]
  exact listed

theorem restore_placed {index : Nat} {instruction : Trampoline.Instruction}
    (listed : Trampoline.restoreFrame[index]? = some instruction) :
    code[Handler.tyrneIrqCurrElTrampoline.position + 16 + index]? = some (.shared instruction) := by
  have inside := (List.getElem?_eq_some_iff.mp listed).1
  have front : (Trampoline.saveFrame ++ [Trampoline.Instruction.blIrqEntry]).length = 16 := rfl
  rw [Nat.add_assoc]
  apply trampoline_placed
  rw [Trampoline.tyrneIrqCurrElTrampoline, List.append_assoc,
    List.getElem?_append_right (by omega), front, Nat.add_sub_cancel_left,
    List.getElem?_append_left inside]
  exact listed

variable {processor : Processor} {machine : Trampoline.Machine}

theorem call_step
    (here : machine.pc = place base (Handler.tyrneIrqCurrElTrampoline.position + 15)) :
    step irqEntry panicEntry base (processor.withMachine machine) =
      some (processor.withMachine (irqEntry (machine.setX 30 (machine.pc + 4)))) :=
  @step_at irqEntry panicEntry base (processor.withMachine machine) _ _ here
    (@trampoline_placed 15 _ rfl)

theorem return_step
    (here : machine.pc = place base (Handler.tyrneIrqCurrElTrampoline.position + 30)) :
    step irqEntry panicEntry base (processor.withMachine machine) =
      some (processor.withMachine
        { machine with pc := machine.elrEl1, pstate := machine.spsrEl1 }) :=
  @step_at irqEntry panicEntry base (processor.withMachine machine) _ _ here
    (@trampoline_placed 30 _ rfl)

theorem set_x_self (machine : Trampoline.Machine) (target : XReg) (value : UInt64) :
    (machine.setX target value).x target = value := by
  simp [Trampoline.Machine.setX]

theorem trampoline_halves :
    Trampoline.execute irqEntry Trampoline.tyrneIrqCurrElTrampoline machine =
      Trampoline.execute irqEntry [.eret]
        (Trampoline.execute irqEntry Trampoline.restoreFrame
          (irqEntry (Trampoline.atCall irqEntry machine))) := by
  have call : Trampoline.execute irqEntry [.blIrqEntry]
      (Trampoline.execute irqEntry Trampoline.saveFrame machine) =
        irqEntry (Trampoline.atCall irqEntry machine) := rfl
  rw [Trampoline.tyrneIrqCurrElTrampoline, Trampoline.execute_append, Trampoline.execute_append,
    Trampoline.execute_append, call]

theorem trampoline_returns :
    (Trampoline.execute irqEntry Trampoline.tyrneIrqCurrElTrampoline machine).pc =
        (Trampoline.execute irqEntry Trampoline.tyrneIrqCurrElTrampoline machine).elrEl1 ∧
      (Trampoline.execute irqEntry Trampoline.tyrneIrqCurrElTrampoline machine).pstate =
        (Trampoline.execute irqEntry Trampoline.tyrneIrqCurrElTrampoline machine).spsrEl1 := by
  rw [trampoline_halves, Trampoline.execute_eret]
  exact ⟨rfl, rfl⟩

theorem irq_leads (conforms : Trampoline.Conforms irqEntry)
    (here : processor.pc = place base Handler.tyrneIrqCurrElTrampoline.position) :
    Leads (step irqEntry panicEntry base) (fun _ => True) processor
      (processor.withMachine
        (Trampoline.execute irqEntry Trampoline.tyrneIrqCurrElTrampoline processor.machine)) := by
  rcases @leads_straight irqEntry panicEntry base processor Trampoline.saveFrame _ here (by decide)
      (fun offset instruction => save_placed) with ⟨saves, savedPc⟩
  have calls := @call_step irqEntry panicEntry base processor _ savedPc
  have link : (Trampoline.atCall irqEntry processor.machine).x 30 =
      (Trampoline.execute irqEntry Trampoline.saveFrame processor.machine).pc + 4 :=
    set_x_self _ 30 _
  rw [savedPc, place_add] at link
  have returned := (conforms (Trampoline.atCall irqEntry processor.machine)).pc.trans link
  rcases @leads_straight irqEntry panicEntry base (processor.withMachine
      (irqEntry (Trampoline.atCall irqEntry processor.machine))) Trampoline.restoreFrame _ returned
      (by decide) (fun offset instruction => restore_placed) with ⟨restores, restoredPc⟩
  have goesOn := @return_step irqEntry panicEntry base processor _ restoredPc
  rw [trampoline_halves, Trampoline.execute_eret]
  exact saves.trans (.step trivial calls (restores.trans (.single trivial goesOn)))

end Trampoline

/-- Every exception, from every mode and whatever the registers hold: an interrupt in
kernel code goes through the trampoline, and the code it struck goes on with its general-purpose
registers, stack pointers and `PSTATE`. Any other exception calls `panic_entry` with its class
and its syndrome, everything masked on the way; a call that came back would halt. -/
theorem exceptions_dispatch (conforms : Trampoline.Conforms irqEntry)
    (installed : interrupted.vbarEl1 = base)
    (mode : sourceOf interrupted.pstate = some source)
    (taken : takeException kind syndrome interrupted = some entered) :
    (kind = .irq ∧ source = .currElSpx →
      ∃ resumed, Leads (step irqEntry panicEntry base) (fun _ => True) entered resumed ∧
        Resumes irqEntry interrupted resumed) ∧
      (¬ (kind = .irq ∧ source = .currElSpx) →
        ∃ called, Leads (step irqEntry panicEntry base)
            (fun passed => passed.pstate = handlerPstate interrupted.pstate) entered called ∧
          Reports panicEntry (if kind = .irq then 1 else 0) interrupted entered called ∧
          ∀ returned, returned.pc = called.x 30 → ∀ count, ∃ later,
            after (step irqEntry panicEntry base) count returned = some later ∧
              Halted base (handlerOf source kind) later) := by
  have isEntered : enter source kind syndrome interrupted = entered := by
    unfold takeException at taken
    split at taken
    · cases taken
    · rw [mode, Option.map_some, Option.some.injEq] at taken
      exact taken
  subst isEntered
  have branches := @enter_branches irqEntry panicEntry base interrupted installed source kind syndrome
  constructor
  · rintro ⟨isIrq, fromKernel⟩
    subst isIrq fromKernel
    let struck := { enter .currElSpx .irq syndrome interrupted with
      pc := place base (handlerOf .currElSpx .irq).position }
    have leads := @irq_leads irqEntry panicEntry base struck conforms rfl
    rcases Trampoline.trampoline_restores conforms struck.machine with ⟨x, sp, elr, spsr, v⟩
    rcases @trampoline_returns irqEntry struck.machine with ⟨pc, pstate⟩
    exact ⟨_, .step trivial branches leads, x, rfl, sp, pc.trans elr, pstate.trans spsr, rfl,
      Trampoline.atCall irqEntry struck.machine, rfl, rfl, v⟩
  · intro other
    have handled : (handlerOf source kind).body =
        unhandledTrampoline (if kind = .irq then 1 else 0) := by
      by_cases isIrq : kind = .irq
      · have elsewhere : source ≠ .currElSpx := fun same => other ⟨isIrq, same⟩
        rw [handlerOf, if_pos isIrq, if_neg elsewhere, if_pos isIrq]
        rfl
      · rw [handlerOf, if_neg isIrq, if_neg isIrq]
        rfl
    rcases @unhandled_leads irqEntry panicEntry base _ _ handled
        { enter source kind syndrome interrupted with
          pc := place base (handlerOf source kind).position } rfl with
      ⟨called, leads, pc, classPassed, esrPassed, link, same⟩
    refine ⟨called, .step rfl branches leads, ?_, ?_⟩
    · rw [same] at classPassed esrPassed ⊢
      exact ⟨rfl, classPassed, esrPassed, rfl, rfl, rfl, rfl⟩
    · intro returned comesBack count
      exact returned_call_halts handled (comesBack.trans link) count

end Dispatch

/-! ## A data abort in the kernel -/

def faulting : Processor where
  x := fun _ => 0
  spEl0 := 0
  spEl1 := 0x40090000
  v := fun _ => 0
  elrEl1 := 0
  spsrEl1 := 0
  esrEl1 := 0
  vbarEl1 := 0x40080800
  pstate := 0x5
  pc := 0x40081000
  memory := fun _ => 0

def dataAbort : Processor := enter .currElSpx .sync 0x96000045 faulting

theorem exceptions_dispatch_data_abort :
    ∃ called, Leads (step Trampoline.returning 0x40082000 0x40080800)
        (fun passed => passed.pstate = handlerPstate 0x5) dataAbort called ∧
      Reports 0x40082000 0 faulting dataAbort called := by
  have taken : takeException .sync 0x96000045 faulting = some dataAbort := rfl
  rcases (@exceptions_dispatch _ 0x40082000 0x40080800 .sync _ _ _ .currElSpx
    Trampoline.returning_conforms rfl rfl taken).2 (by decide) with ⟨called, leads, reports, _⟩
  exact ⟨called, leads, reports⟩

end Tyrne.Vectors
