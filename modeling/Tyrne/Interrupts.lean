import Tyrne.EnableSet

/-!
# Interrupts on the board

From the first instruction of `kernel_entry` on: the vector table is installed, the
controller is published and initialised, and interrupts are unmasked; then tasks call the
timer and the controller. `irq_entry` runs in between, access by access, while devices
raise and lower their lines as they like.
-/

namespace Tyrne.Interrupts

open Tyrne.Timer (Panic nsToTicks)
open Tyrne.Deadline (IrqNumber QemuVirtCpu timerIrq gicSpuriousIntid giccIarIntidMask)
open Tyrne.Gic

set_option autoImplicit false

/-! ## What runs outside the handler -/

/-- A step of `kernel_entry` or of a call. -/
inductive Action where
  | msrVbarEl1
  | publishGic (gic : QemuVirtGic)
  | register (write : RegisterWrite)
  | msrDaifClr (bits : BitVec 4)
  | msrDaif (bits : BitVec 4)
  | msrCntvCval (value : UInt64)
  | msrCntvCtl (value : UInt64)
  | line (call : Call)

/-- The writes `init` makes to a controller in this state. -/
def initLog (gic : QemuVirtGic) (device : Gicv2) : List RegisterWrite :=
  match gic.init ⟨device, []⟩ with
  | .ok _ bus => bus.writes
  | .err _ _ | .fault _ => []

/-- `kernel_entry` up to the unmasking of interrupts. -/
def hardwareSetup (gic : QemuVirtGic) (device : Gicv2) : List Action :=
  [.msrVbarEl1, .publishGic gic] ++ ((initLog gic device).map .register ++ [.msrDaifClr 0x2])

/-- What a task may ask of the timer, the controller and the mask. -/
inductive Request where
  | enable (irq : IrqNumber)
  | disable (irq : IrqNumber)
  | armDeadline (deadlineNs : UInt64)
  | cancelDeadline
  | restoreIrqState (bits : BitVec 4)
  deriving DecidableEq, Repr

def Request.actions (cpu : QemuVirtCpu) : Request → Except Panic (List Action)
  | enable irq => .ok [.line (.enable irq)]
  | disable irq => .ok [.line (.disable irq)]
  | armDeadline deadlineNs => do
      let targetTicks ← nsToTicks deadlineNs cpu.frequencyHz
      return [.msrCntvCval targetTicks, .msrCntvCtl 1, .line (.enable timerIrq)]
  | cancelDeadline => .ok [.msrCntvCtl 2, .line (.disable timerIrq)]
  | restoreIrqState bits => .ok [.msrDaif bits]

/-! ## The handler -/

/-- Where `irq_entry` is. -/
inductive Point where
  | acknowledges
  | masksTimer (irq : IrqNumber)
  | endsTimer (irq : IrqNumber)
  | endsUnhandled (irq : IrqNumber)
  | returns
  | panicked (irq : IrqNumber)
  deriving DecidableEq, Repr

/-- The interrupt that is acknowledged and not ended there. -/
def Point.held : Point → Option IrqNumber
  | masksTimer irq | endsTimer irq | endsUnhandled irq => some irq
  | acknowledges | returns | panicked _ => none

/-- What `acknowledge` makes of a value of `GICC_IAR`. -/
def acknowledge (raw : UInt32) : Option IrqNumber :=
  let intid := raw &&& giccIarIntidMask
  if intid = gicSpuriousIntid then none else some intid

def dispatch : Option IrqNumber → Point
  | none => .returns
  | some irq => if irq = timerIrq then .masksTimer irq else .endsUnhandled irq

structure Frame where
  savedDaif : BitVec 4
  point : Point
  deriving DecidableEq, Repr

/-- An access to the acknowledge or to the end register. -/
inductive Access where
  | iar (raw : UInt32)
  | eoir (irq : IrqNumber)
  deriving DecidableEq, Repr

/-! ## The machine -/

/-- `lost` is where an exception finds no vector table or `irq_entry` no controller,
`halted` where a call has panicked. -/
structure State where
  daif : BitVec 4
  vectors : Bool
  gic : Option QemuVirtGic
  bus : Bus
  pending : Nat → Bool
  active : List IrqNumber
  cntvCval : UInt64
  cntvCtl : UInt64
  program : List Action
  frames : List Frame
  accesses : List Access
  halted : Bool
  lost : Bool

namespace State

/-- As boot leaves it, with any controller and any lines pending. -/
def handedOver (gic : QemuVirtGic) (device : Gicv2) (pending : Nat → Bool)
    (cntvCval cntvCtl : UInt64) : State where
  daif := 0xf
  vectors := false
  gic := none
  bus := ⟨device, []⟩
  pending := pending
  active := []
  cntvCval := cntvCval
  cntvCtl := cntvCtl
  program := hardwareSetup gic device
  frames := []
  accesses := []
  halted := false
  lost := false

def presents (state : State) (line : Nat) : Bool :=
  state.bus.device.gicdCtlr.getLsbD 0 && state.bus.device.giccCtlr.getLsbD 0 &&
    state.pending line && state.bus.device.enabled line &&
    !(state.active.any fun irq => irq.toNat == line)

/-- A read of `GICC_IAR` gives a line that could be signalled, or, as far as the driver can
know, none. -/
def answers (state : State) (raw : UInt32) : Bool :=
  raw == gicSpuriousIntid || (decide (raw < Deadline.gicMaxIrq) && state.presents raw.toNat)

def perform (state : State) : Action → State
  | .msrVbarEl1 => { state with vectors := true }
  | .publishGic gic => { state with gic := some gic }
  | .register write => { state with bus := state.bus.performAll [write] }
  | .msrDaifClr bits => { state with daif := state.daif &&& ~~~bits }
  | .msrDaif bits => { state with daif := bits }
  | .msrCntvCval value => { state with cntvCval := value }
  | .msrCntvCtl value => { state with cntvCtl := value }
  | .line call =>
      match state.gic with
      | none => { state with lost := true }
      | some gic =>
          match call.run gic state.bus with
          | .ok _ bus => { state with bus := bus }
          | .err _ _ | .fault _ => { state with program := [], halted := true }

/-- The exception masks everything and comes to the trampoline, which calls `irq_entry`. -/
def takeIrq (state : State) : State :=
  if state.vectors then
    { state with daif := 0xf, frames := ⟨state.daif, .acknowledges⟩ :: state.frames }
  else { state with lost := true }

def readIar (state : State) (raw : UInt32) (frame : Frame) (outer : List Frame) : State :=
  { state with
    active := if raw = gicSpuriousIntid then state.active else raw :: state.active
    accesses := state.accesses ++ [.iar raw]
    frames := { frame with point := dispatch (acknowledge raw) } :: outer }

def writeEoir (state : State) (irq : IrqNumber) (frame : Frame) (outer : List Frame) : State :=
  { state with
    active := if state.active.head? = some irq then state.active.tail else state.active
    accesses := state.accesses ++ [.eoir irq]
    frames := frame :: outer }

def handle (state : State) (frame : Frame) (outer : List Frame) : Option State :=
  match frame.point with
  | .acknowledges => none
  | .masksTimer irq =>
      some { state with cntvCtl := 2, frames := { frame with point := .endsTimer irq } :: outer }
  | .endsTimer irq => some (state.writeEoir irq { frame with point := .returns } outer)
  | .endsUnhandled irq => some (state.writeEoir irq { frame with point := .panicked irq } outer)
  | .returns => some { state with daif := frame.savedDaif, frames := outer }
  | .panicked _ => none

end State

inductive Event where
  | lines (pending : Nat → Bool)
  | calls (request : Request)
  | acts
  | taken (line : Nat)
  | reads (raw : UInt32)
  | handles

def next (cpu : QemuVirtCpu) (state : State) : Event → Option State
  | .lines pending => some { state with pending := pending }
  | .calls request =>
      match state.program, state.frames, state.halted with
      | [], [], false =>
          match request.actions cpu with
          | .ok actions => some { state with program := actions }
          | .error _ => some { state with halted := true }
      | _, _, _ => none
  | .acts =>
      match state.program, state.frames with
      | action :: rest, [] => some ({ state with program := rest }.perform action)
      | _, _ => none
  | .taken line =>
      if !state.daif.getLsbD 1 && state.presents line then some state.takeIrq else none
  | .reads raw =>
      match state.frames with
      | ⟨savedDaif, .acknowledges⟩ :: outer =>
          if state.gic.isNone then some { state with lost := true }
          else if state.answers raw then
            some (state.readIar raw ⟨savedDaif, .acknowledges⟩ outer)
          else none
      | _ => none
  | .handles =>
      match state.frames with
      | frame :: outer => state.handle frame outer
      | [] => none

def Step (cpu : QemuVirtCpu) (before : State) (event : Event) (after : State) : Prop :=
  next cpu before event = some after

/-! ## What a step does -/

section Inversion

variable {cpu : QemuVirtCpu} {before after : State}

theorem step_calls {request : Request} (step : Step cpu before (.calls request) after) :
    before.program = [] ∧ before.frames = [] ∧
      ((∃ actions, request.actions cpu = .ok actions ∧ after = { before with program := actions }) ∨
        after = { before with halted := true }) := by
  simp only [Step, next] at step
  split at step
  · next idle outside running =>
      refine ⟨idle, outside, ?_⟩
      split at step
      · next actions asked =>
          cases step
          exact .inl ⟨actions, asked, rfl⟩
      · cases step
        exact .inr rfl
  · cases step

theorem step_acts (step : Step cpu before .acts after) :
    ∃ action rest, before.program = action :: rest ∧ before.frames = [] ∧
      after = { before with program := rest }.perform action := by
  simp only [Step, next] at step
  split at step
  · next action rest left outside =>
      cases step
      exact ⟨action, rest, left, outside, rfl⟩
  · cases step

theorem step_taken {line : Nat} (step : Step cpu before (.taken line) after) :
    before.daif.getLsbD 1 = false ∧ before.presents line = true ∧ after = before.takeIrq := by
  simp only [Step, next] at step
  split at step
  · next allowed =>
      cases step
      rw [Bool.and_eq_true, Bool.not_eq_true'] at allowed
      exact ⟨allowed.1, allowed.2, rfl⟩
  · cases step

theorem step_reads {raw : UInt32} (step : Step cpu before (.reads raw) after) :
    ∃ savedDaif outer, before.frames = ⟨savedDaif, .acknowledges⟩ :: outer ∧
      ((before.gic = none ∧ after = { before with lost := true }) ∨
        (before.answers raw = true ∧
          after = before.readIar raw ⟨savedDaif, .acknowledges⟩ outer)) := by
  simp only [Step, next] at step
  split at step
  · next savedDaif outer here =>
      refine ⟨savedDaif, outer, here, ?_⟩
      split at step
      · next unpublished =>
          cases step
          exact .inl ⟨Option.isNone_iff_eq_none.mp unpublished, rfl⟩
      · split at step
        · next answered =>
            cases step
            exact .inr ⟨answered, rfl⟩
        · cases step
  · cases step

theorem step_handles (step : Step cpu before .handles after) :
    ∃ frame outer, before.frames = frame :: outer ∧ before.handle frame outer = some after := by
  simp only [Step, next] at step
  split at step
  · next frame outer here => exact ⟨frame, outer, here, step⟩
  · cases step

end Inversion

end Tyrne.Interrupts
