import Tyrne.CapTable
import Tyrne.ObjArena

/-!
# Message passing through endpoints

`kernel/src/ipc/mod.rs`. Each endpoint slot has a one-place queue whose state is
kept beside the arena and is tagged with the generation of the endpoint that last
used it. A send and a receive run on the endpoint arena, the queues and the
caller's capability table, which the source passes as separate references and
which form one state here.
-/

namespace Tyrne.Ipc

open Tyrne.Lib.Effect
open Tyrne.Cap
open Tyrne.CapTable (CapabilityTable TableM lookup capTake insertRoot isFull)
open Tyrne.ObjArena

set_option autoImplicit false

structure Message where
  label : UInt64
  params : Vector UInt64 3
  deriving DecidableEq, Repr

inductive IpcError where
  | invalidCapability
  | queueFull
  | invalidTransferCap
  | receiverTableFull
  | pendingAfterResume
  deriving DecidableEq, Repr

inductive SendOutcome where
  | delivered
  | enqueued
  deriving DecidableEq, Repr

inductive RecvOutcome where
  | received (msg : Message) (cap : Option CapHandle)
  | pending
  deriving DecidableEq, Repr

inductive EndpointState where
  | idle
  | sendPending (msg : Message) (cap : Option Capability)
  | recvWaiting
  | recvComplete (msg : Message) (cap : Option Capability)
  deriving DecidableEq, Repr

namespace EndpointState

/-- `SendPending { .. } | RecvComplete { .. }`: the pair that is parked here. -/
def stored : EndpointState → Option (Message × Option Capability)
  | .idle => none
  | .sendPending msg cap => some (msg, cap)
  | .recvWaiting => none
  | .recvComplete msg cap => some (msg, cap)

/-- The capability of `SendPending { cap: Some(_) }` or `RecvComplete { cap: Some(_) }`. -/
def parked (state : EndpointState) : Option Capability := state.stored.bind Prod.snd

end EndpointState

structure IpcQueues where
  states : Vector EndpointState endpointArenaCapacity
  slotGenerations : Vector Generation endpointArenaCapacity
  deriving DecidableEq, Repr

def IpcQueues.new : IpcQueues where
  states := Vector.replicate endpointArenaCapacity .idle
  slotGenerations := Vector.replicate endpointArenaCapacity 0

/-! ## The queues -/

abbrev QueuesM : Type → Type := Eff Fault IpcQueues IpcError

def resetIfStaleGeneration (build : Build) (handle : EndpointHandle) : QueuesM Index := do
  let queues ← read
  let idx := handle.slot.index
  let gen := handle.slot.generation
  match queues.slotGenerations[idx]?, queues.states[idx]? with
  | some recorded, some state =>
      if recorded ≠ gen then
        debugAssert build state.parked.isNone .endpointNotDrained
        write { states := queues.states.setIfInBounds idx .idle
                slotGenerations := queues.slotGenerations.setIfInBounds idx gen }
        pure idx
      else pure idx
  | _, _ => abort .indexOutOfBounds

/-- `state_of`: the place of the state, for the writes that follow. -/
def stateOf (build : Build) (handle : EndpointHandle) : QueuesM Index :=
  resetIfStaleGeneration build handle

def loadState (place : Index) : QueuesM EndpointState := do
  let queues ← read
  match queues.states[place]? with
  | some state => pure state
  | none => abort .indexOutOfBounds

def assignState (place : Index) (state : EndpointState) : QueuesM Unit := do
  let queues ← read
  write { queues with states := queues.states.setIfInBounds place state }

/-- `core::mem::replace`. -/
def replaceState (place : Index) (state : EndpointState) : QueuesM EndpointState := do
  let old ← loadState place
  assignState place state
  pure old

def peekState (build : Build) (handle : EndpointHandle) : QueuesM EndpointState := do
  let idx ← resetIfStaleGeneration build handle
  loadState idx

/-! ## Helpers on the caller's table -/

abbrev CallerM : Type → Type := Eff Fault CapabilityTable IpcError

def validateEpCap (epCap : CapHandle) (required : CapRights) : CallerM EndpointHandle := do
  let cap ← mapErr (fun _ => IpcError.invalidCapability) (lookup epCap)
  if !cap.rights.contains required then fail .invalidCapability
  else
    match cap.object with
    | .endpoint handle => pure handle
    | _ => fail .invalidCapability

def checkTransfer (transfer : Option CapHandle) : CallerM Unit :=
  match transfer with
  | none => pure ()
  | some xfer => do
      let xferCap ← mapErr (fun _ => IpcError.invalidTransferCap) (lookup xfer)
      if !xferCap.rights.contains .transfer then fail .invalidTransferCap else pure ()

def takeCapIfSome (handle : Option CapHandle) : CallerM (Option Capability) :=
  match handle with
  | some handle => do
      let taken ← mapErr (fun _ => IpcError.invalidTransferCap) (capTake handle)
      pure (some taken)
  | none => pure none

def installCapIfSome (cap : Option Capability) : CallerM (Option CapHandle) :=
  match cap with
  | some cap => do
      let handle ← mapErr (fun _ => IpcError.receiverTableFull) (insertRoot cap)
      pure (some handle)
  | none => pure none

/-! ## Sending and receiving -/

structure IpcState where
  arena : EndpointArena
  queues : IpcQueues
  table : CapabilityTable
  deriving DecidableEq, Repr

abbrev IpcM : Type → Type := Eff Fault IpcState IpcError

def onTable {Value : Type} (computation : CallerM Value) : IpcM Value :=
  zoom IpcState.table (fun state table => { state with table := table }) computation

def onQueues {Value : Type} (computation : QueuesM Value) : IpcM Value :=
  zoom IpcState.queues (fun state queues => { state with queues := queues }) computation

/-- `ep_arena.get(..).ok_or(IpcError::InvalidCapability)`. -/
def requireEndpoint (handle : EndpointHandle) : IpcM Unit := do
  let state ← read
  match get state.arena handle.slot with
  | some _ => pure ()
  | none => fail .invalidCapability

/-- `ipc_send` from `take_cap_if_some` on. -/
def commitSend (build : Build) (epHandle : EndpointHandle) (msg : Message)
    (transfer : Option CapHandle) : IpcM SendOutcome := do
  let owned ← onTable (takeCapIfSome transfer)
  let state ← onQueues (stateOf build epHandle)
  let old ← onQueues (replaceState state .idle)
  match old with
  | .recvWaiting =>
      onQueues (assignState state (.recvComplete msg owned))
      pure .delivered
  | .idle =>
      onQueues (assignState state (.sendPending msg owned))
      pure .enqueued
  | .sendPending _ _ => abort .unreachableSend
  | .recvComplete _ _ => abort .unreachableSend

def ipcSend (build : Build) (epCap : CapHandle) (msg : Message)
    (transfer : Option CapHandle) : IpcM SendOutcome := do
  let epHandle ← onTable (validateEpCap epCap .send)
  onTable (checkTransfer transfer)
  requireEndpoint epHandle
  let peeked ← onQueues (peekState build epHandle)
  if peeked.stored.isSome then fail .queueFull
  else commitSend build epHandle msg transfer

/-- The arm `SendPending { msg, cap } | RecvComplete { msg, cap }` of `ipc_recv`. -/
def deliver (msg : Message) (cap : Option Capability) : IpcM RecvOutcome := do
  let xfer ← onTable (installCapIfSome cap)
  pure (.received msg xfer)

/-- `ipc_recv` from `state_of` on. -/
def commitRecv (build : Build) (epHandle : EndpointHandle) : IpcM RecvOutcome := do
  let state ← onQueues (stateOf build epHandle)
  let old ← onQueues (replaceState state .idle)
  match old with
  | .sendPending msg cap => deliver msg cap
  | .recvComplete msg cap => deliver msg cap
  | .idle =>
      onQueues (assignState state .recvWaiting)
      pure .pending
  | .recvWaiting =>
      onQueues (assignState state .recvWaiting)
      fail .queueFull

def ipcRecv (build : Build) (epCap : CapHandle) : IpcM RecvOutcome := do
  let epHandle ← onTable (validateEpCap epCap .recv)
  requireEndpoint epHandle
  let peeked ← onQueues (peekState build epHandle)
  let caller ← read
  if peeked.parked.isSome && isFull caller.table then fail .receiverTableFull
  else commitRecv build epHandle

end Tyrne.Ipc
