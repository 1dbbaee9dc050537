import Tyrne.SchedQueue
import Tyrne.System

/-!
# Scheduler and bridge

`kernel/src/sched/mod.rs`. The scheduler proper is a record that `add_task`,
`start_prelude` and the pre-switch halves of the bridge functions change. A bridge
function gives up control at `context_switch`: there the model records in the
caller's frame where the function will go on, and the task that was switched to
goes on from its own frame by `resume`. What a context switch does to registers is
a parameter.
-/

namespace Tyrne.Sched

open Tyrne.Lib.Effect
open Tyrne.Cap
open Tyrne.CapTable (CapabilityTable lookup)
open Tyrne.Ipc
open Tyrne.System (World seenBy putBack)

set_option autoImplicit false

def taskArenaCapacity : Nat := 16

inductive TaskState where
  | idle
  | ready
  | blocked (on : EndpointHandle)
  deriving DecidableEq, Repr

inductive SchedError where
  | noCurrentTask
  | queueFull
  | ipc (error : IpcError)
  | deadlock
  deriving DecidableEq, Repr

abbrev IrqState : Type := UInt64

/-- What the board support package provides, `C: ContextSwitch + Cpu`.
`contextSwitch` saves the machine into the context of the task that leaves and
loads the context of the task that comes. -/
structure Cpu (Context Machine : Type) where
  emptyContext : Context
  initContext : Context → UInt64 → UInt64 → Context
  disableIrqs : Machine → IrqState × Machine
  restoreIrqState : IrqState → Machine → Machine
  contextSwitch : Context → Context → Machine → Context × Machine

structure Scheduler (Context : Type) where
  ready : SchedQueue taskArenaCapacity
  taskStates : Vector TaskState taskArenaCapacity
  taskHandles : Vector (Option TaskHandle) taskArenaCapacity
  current : Option TaskHandle
  contexts : Vector Context taskArenaCapacity

section Scheduler

variable {Context Machine : Type}

def Scheduler.new (cpu : Cpu Context Machine) : Scheduler Context where
  ready := SchedQueue.new
  taskStates := Vector.replicate taskArenaCapacity .idle
  taskHandles := Vector.replicate taskArenaCapacity none
  current := none
  contexts := Vector.replicate taskArenaCapacity cpu.emptyContext

abbrev SchedM (Context : Type) : Type → Type := Eff SchedFault (Scheduler Context) SchedError

def onReady {Error Value : Type} (computation : Eff SchedFault (SchedQueue taskArenaCapacity) Error Value) :
    Eff SchedFault (Scheduler Context) Error Value :=
  zoom Scheduler.ready (fun sched ready => { sched with ready := ready }) computation

def taskStateAt (idx : Index) : SchedM Context TaskState := do
  let sched ← read
  match sched.taskStates[idx]? with
  | some state => pure state
  | none => abort .indexOutOfBounds

def taskHandleAt (idx : Index) : SchedM Context (Option TaskHandle) := do
  let sched ← read
  match sched.taskHandles[idx]? with
  | some handle => pure handle
  | none => abort .indexOutOfBounds

def setTaskState (idx : Index) (state : TaskState) : SchedM Context Unit := do
  let _ ← taskStateAt idx
  let sched ← read
  write { sched with taskStates := sched.taskStates.setIfInBounds idx state }

def setTaskHandle (idx : Index) (handle : TaskHandle) : SchedM Context Unit := do
  let _ ← taskHandleAt idx
  let sched ← read
  write { sched with taskHandles := sched.taskHandles.setIfInBounds idx (some handle) }

def setCurrent (current : Option TaskHandle) : SchedM Context Unit := do
  let sched ← read
  write { sched with current := current }

def addTask (cpu : Cpu Context Machine) (handle : TaskHandle) (entry stackTop : UInt64) :
    SchedM Context Unit := do
  let idx := handle.slot.index
  let sched ← read
  match sched.contexts[idx]? with
  | none => abort .indexOutOfBounds
  | some context =>
      write { sched with
        contexts := sched.contexts.setIfInBounds idx (cpu.initContext context entry stackTop) }
      mapErr (fun _ => SchedError.queueFull) (onReady (enqueue handle))
      setTaskState idx .ready
      setTaskHandle idx handle

/-- `let Ok(()) = ready.enqueue(handle) else { panic!(..) }`. -/
def enqueueOrPanic (panic : SchedFault) (handle : TaskHandle) : SchedM Context Unit :=
  orAbort panic (onReady (enqueue handle))

/-- The loop of `unblock_receiver_on` over the slots still to be looked at. -/
def unblockAmong (ep : EndpointHandle) : List Index → SchedM Context Unit
  | [] => pure ()
  | idx :: rest => do
      match ← taskStateAt idx with
      | .blocked on =>
          if on = ep then
            match ← taskHandleAt idx with
            | some handle =>
                setTaskState idx .ready
                enqueueOrPanic .queueFullOnUnblock handle
            | none => unblockAmong ep rest
          else unblockAmong ep rest
      | _ => unblockAmong ep rest

def unblockReceiverOn (ep : EndpointHandle) : SchedM Context Unit :=
  unblockAmong ep (List.range taskArenaCapacity)

def startPrelude : SchedM Context Index := do
  match ← onReady dequeue with
  | none => abort .startOnEmptyQueue
  | some next =>
      setTaskState next.slot.index .ready
      setCurrent (some next)
      pure next.slot.index

/-- `yield_now` up to the switch: the indices to switch between, or nothing when the
caller is the only ready task. -/
def yieldPrelude : SchedM Context (Option (Index × Index)) := do
  let sched ← read
  match sched.current with
  | none => fail .noCurrentTask
  | some current =>
      setTaskState current.slot.index .ready
      enqueueOrPanic .queueFullOnYield current
      match ← onReady dequeue with
      | none => pure none
      | some next =>
          if next = current then pure none
          else
            setTaskState next.slot.index .ready
            setCurrent (some next)
            pure (some (current.slot.index, next.slot.index))

/-- Phase 2 of `ipc_recv_and_yield` up to the switch. -/
def blockPrelude (build : Build) (ep : EndpointHandle) : SchedM Context (Index × Index) := do
  let sched ← read
  match sched.current with
  | none => fail .noCurrentTask
  | some current =>
      let prior ← taskStateAt current.slot.index
      debugAssert build (decide (prior = .ready)) .runningTaskNotReady
      setTaskState current.slot.index (.blocked ep)
      setCurrent none
      match ← onReady dequeue with
      | none =>
          setTaskState current.slot.index prior
          setCurrent (some current)
          fail .deadlock
      | some next =>
          setTaskState next.slot.index .ready
          setCurrent (some next)
          pure (current.slot.index, next.slot.index)

end Scheduler

/-! ## The bridge -/

/-- Where a task goes on when it is switched to: in its own code, behind the switch of
`yield_now`, behind the switch of the yield inside `ipc_send_and_yield`, or at Phase 3
of `ipc_recv_and_yield`. A suspended bridge function holds its interrupt guard. -/
inductive Frame (Party : Type) where
  | outside
  | inYield (guard : IrqState)
  | inSend (guard : IrqState) (outcome : SendOutcome)
  | inRecv (guard : IrqState) (party : Party) (epCap : CapHandle)
  deriving DecidableEq, Repr

structure Kernel (Party Context Machine : Type) where
  sched : Scheduler Context
  world : World Party
  machine : Machine
  frames : Index → Frame Party

/-- What a call came to: it returned this value, or control went to another task. -/
inductive Reply where
  | switched
  | yielded
  | sent (outcome : SendOutcome)
  | received (outcome : RecvOutcome)
  | computed
  deriving DecidableEq, Repr

inductive Call (Party : Type) where
  | yieldNow
  | ipcSendAndYield (party : Party) (epCap : CapHandle) (msg : Message)
      (transfer : Option CapHandle)
  | ipcRecvAndYield (party : Party) (epCap : CapHandle)
  deriving DecidableEq, Repr

section Bridge

variable {Party Context Machine : Type} [DecidableEq Party] (cpu : Cpu Context Machine)
  (build : Build)

abbrev KernelM (Party Context Machine : Type) : Type → Type :=
  Eff SchedFault (Kernel Party Context Machine) SchedError

def onSched {Value : Type} (computation : SchedM Context Value) :
    KernelM Party Context Machine Value :=
  zoom Kernel.sched (fun kernel sched => { kernel with sched := sched }) computation

/-- An operation on the arena, the queues and one capability table. -/
def asParty {Value : Type} (party : Party) (computation : IpcM Value) :
    KernelM Party Context Machine Value :=
  mapErr SchedError.ipc (mapFault SchedFault.inner
    (zoom (fun kernel => seenBy kernel.world party)
      (fun kernel state => { kernel with world := putBack kernel.world party state })
      computation))

def resolveEpCap (epCap : CapHandle) : CallerM EndpointHandle := do
  let cap ← mapErr (fun _ => IpcError.invalidCapability) (lookup epCap)
  match cap.object with
  | .endpoint handle => pure handle
  | _ => fail .invalidCapability

/-- The switch window: mask interrupts, save the task that leaves, load the one that
comes. `suspend` is where the task that leaves will go on. -/
def switchContext (currentIdx nextIdx : Index) (suspend : IrqState → Frame Party) :
    KernelM Party Context Machine Unit := do
  debugAssert build (decide (currentIdx ≠ nextIdx)) .sameTaskIndices
  let kernel ← read
  let (guard, masked) := cpu.disableIrqs kernel.machine
  match kernel.sched.contexts[currentIdx]?, kernel.sched.contexts[nextIdx]? with
  | some current, some next =>
      let (saved, machine) := cpu.contextSwitch current next masked
      write { kernel with
        sched := { kernel.sched with
          contexts := kernel.sched.contexts.setIfInBounds currentIdx saved }
        machine := machine
        frames := Function.update kernel.frames currentIdx (suspend guard) }
  | _, _ => abort .indexOutOfBounds

/-- `yield_now`: whether control went to another task. -/
def yieldTo (suspend : IrqState → Frame Party) : KernelM Party Context Machine Bool := do
  match ← onSched yieldPrelude with
  | none => pure false
  | some (currentIdx, nextIdx) =>
      switchContext cpu build currentIdx nextIdx suspend
      pure true

def yieldNow : KernelM Party Context Machine Reply := do
  let switched ← yieldTo cpu build .inYield
  if switched then pure .switched else pure .yielded

def ipcSendAndYield (party : Party) (epCap : CapHandle) (msg : Message)
    (transfer : Option CapHandle) : KernelM Party Context Machine Reply := do
  let epHandle ← asParty party (onTable (resolveEpCap epCap))
  let outcome ← asParty party (ipcSend build epCap msg transfer)
  if outcome = .delivered then
    onSched (unblockReceiverOn epHandle)
    let switched ← yieldTo cpu build fun guard => .inSend guard outcome
    if switched then pure .switched else pure (.sent outcome)
  else pure (.sent outcome)

def ipcRecvAndYield (party : Party) (epCap : CapHandle) :
    KernelM Party Context Machine Reply := do
  let epHandle ← asParty party (onTable (resolveEpCap epCap))
  match ← asParty party (ipcRecv build epCap) with
  | .received msg cap => pure (.received (.received msg cap))
  | .pending =>
      let (currentIdx, nextIdx) ← onSched (blockPrelude build epHandle)
      switchContext cpu build currentIdx nextIdx fun guard => .inRecv guard party epCap
      pure .switched

def perform : Call Party → KernelM Party Context Machine Reply
  | .yieldNow => yieldNow cpu build
  | .ipcSendAndYield party epCap msg transfer =>
      ipcSendAndYield cpu build party epCap msg transfer
  | .ipcRecvAndYield party epCap => ipcRecvAndYield cpu build party epCap

/-- Drop the interrupt guard and return to the task's own code. -/
def leave (idx : Index) (guard : IrqState) : KernelM Party Context Machine Unit := do
  let kernel ← read
  write { kernel with
    machine := cpu.restoreIrqState guard kernel.machine
    frames := Function.update kernel.frames idx .outside }

/-- What the task that control came to does before it is back in its own code. -/
def resume : KernelM Party Context Machine Reply := do
  let kernel ← read
  match kernel.sched.current with
  | none => fail .noCurrentTask
  | some current =>
      match kernel.frames current.slot.index with
      | .outside => pure .computed
      | .inYield guard =>
          leave cpu current.slot.index guard
          pure .yielded
      | .inSend guard outcome =>
          leave cpu current.slot.index guard
          pure (.sent outcome)
      | .inRecv guard party epCap =>
          leave cpu current.slot.index guard
          match ← asParty party (ipcRecv build epCap) with
          | .received msg cap => pure (.received (.received msg cap))
          | .pending => fail (.ipc .pendingAfterResume)

/-! ## Boot and runs -/

structure Registration where
  handle : TaskHandle
  entry : UInt64
  stackTop : UInt64
  deriving DecidableEq, Repr

def registerAll : List Registration → SchedM Context Unit
  | [] => pure ()
  | first :: rest => do
      addTask cpu first.handle first.entry first.stackTop
      registerAll rest

/-- `start`: the bootstrap frame is abandoned, so its guard is never dropped. -/
def start (registrations : List Registration) : KernelM Party Context Machine Unit := do
  onSched (registerAll cpu registrations)
  let nextIdx ← onSched startPrelude
  let kernel ← read
  match kernel.sched.contexts[nextIdx]? with
  | none => abort .indexOutOfBounds
  | some next =>
      let masked := (cpu.disableIrqs kernel.machine).2
      write { kernel with machine := (cpu.contextSwitch cpu.emptyContext next masked).2 }

def powerOn (world : World Party) (machine : Machine) : Kernel Party Context Machine where
  sched := Scheduler.new cpu
  world := world
  machine := machine
  frames := fun _ => .outside

/-- The task that has control is in its own code. -/
def AtRest (kernel : Kernel Party Context Machine) : Prop :=
  ∃ current, kernel.sched.current = some current ∧
    kernel.frames current.slot.index = .outside

/-- One thing that happens: the task in control makes a call, or goes on behind a
switch, or does something else, which may change the shared objects and the machine. -/
inductive Event (Party Machine : Type) where
  | call (call : Call Party)
  | resume
  | elsewhere (world : World Party) (machine : Machine)

structure KernelLabel (Party Machine : Type) where
  event : Event Party Machine
  result : Except SchedError Reply

def KernelStep (kernel : Kernel Party Context Machine) (label : KernelLabel Party Machine)
    (after : Kernel Party Context Machine) : Prop :=
  match label.event with
  | .call call =>
      AtRest kernel ∧ (perform cpu build call kernel).Returned label.result after
  | .resume => ¬ AtRest kernel ∧ (resume cpu build kernel).Returned label.result after
  | .elsewhere world machine => AtRest kernel ∧ label.result = .ok .computed ∧
      after = { kernel with world := world, machine := machine }

end Bridge

end Tyrne.Sched
