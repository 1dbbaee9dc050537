import Tyrne.IpcStep

/-!
# Parties that share endpoints

Any number of parties, each with its own capability table, share one endpoint
arena and one set of queues. A step is one call by one party: a send, a receive,
an operation on its own table, or the creation or destruction of an endpoint.
-/

namespace Tyrne.System

open Tyrne.Lib.Effect
open Tyrne.Lib.Runs
open Tyrne.Cap
open Tyrne.CapSpace (TableOp TableReply SpaceStep)
open Tyrne.CapTable (CapabilityTable spaceOf)
open Tyrne.ObjArena
open Tyrne.Ipc

set_option autoImplicit false

variable {Party : Type}

structure World (Party : Type) where
  arena : EndpointArena
  queues : IpcQueues
  tables : Party → CapabilityTable

inductive SystemOp (Party : Type) where
  | ipcSend (party : Party) (epCap : CapHandle) (msg : Message) (transfer : Option CapHandle)
  | ipcRecv (party : Party) (epCap : CapHandle)
  | createEndpoint (endpoint : Endpoint)
  | destroyEndpoint (handle : EndpointHandle)
  | table (party : Party) (op : TableOp)

inductive SystemReply where
  | sent (outcome : SendOutcome)
  | received (outcome : RecvOutcome)
  | created (handle : EndpointHandle)
  | destroyed (endpoint : Endpoint)
  | table (reply : TableReply)
  deriving DecidableEq, Repr

inductive SystemError where
  | ipc (error : IpcError)
  | obj (error : ObjError)
  | cap (error : CapError)
  deriving DecidableEq, Repr

/-- One call together with what it returned. -/
structure SystemCall (Party : Type) where
  op : SystemOp Party
  result : Except SystemError SystemReply

abbrev SystemM (Party : Type) : Type → Type := Eff Fault (World Party) SystemError

abbrev SystemTrace (Party : Type) : Type := List (Transition (World Party) (SystemCall Party))

def seenBy (world : World Party) (party : Party) : IpcState :=
  ⟨world.arena, world.queues, world.tables party⟩

section Calls

variable [DecidableEq Party]

def putBack (world : World Party) (party : Party) (state : IpcState) : World Party where
  arena := state.arena
  queues := state.queues
  tables := Function.update world.tables party state.table

@[simp] theorem put_back_table (world : World Party) (party : Party) (state : IpcState) :
    (putBack world party state).tables party = state.table := by
  simp [putBack]

/-- Run a computation on a component and report its errors and value as the system's. -/
def lift {Component Error Value : Type} (view : World Party → Component)
    (put : World Party → Component → World Party) (rename : Error → SystemError)
    (reply : Value → SystemReply) (computation : Eff Fault Component Error Value) :
    SystemM Party SystemReply := do
  let value ← mapErr rename (zoom view put computation)
  pure (reply value)

def perform (build : Build) : SystemOp Party → SystemM Party SystemReply
  | .ipcSend party epCap msg transfer =>
      lift (fun world => seenBy world party) (fun world => putBack world party) .ipc .sent
        (ipcSend build epCap msg transfer)
  | .ipcRecv party epCap =>
      lift (fun world => seenBy world party) (fun world => putBack world party) .ipc .received
        (ipcRecv build epCap)
  | .createEndpoint endpoint =>
      lift World.arena (fun world arena => { world with arena := arena }) .obj .created
        (createEndpoint build endpoint)
  | .destroyEndpoint handle =>
      lift World.arena (fun world arena => { world with arena := arena }) .obj .destroyed
        (destroyEndpoint handle)
  | .table party op =>
      lift (fun world => world.tables party)
        (fun world table => { world with tables := Function.update world.tables party table })
        .cap .table (CapTable.perform build op)

def SystemStep (build : Build) (world : World Party) (call : SystemCall Party)
    (after : World Party) : Prop :=
  (perform build call.op world).Returned call.result after

/-- A result of a component as the system reports it. -/
def liftResult {Error Value : Type} (rename : Error → SystemError) (reply : Value → SystemReply) :
    Except Error Value → Except SystemError SystemReply
  | .ok value => .ok (reply value)
  | .error error => .error (rename error)

omit [DecidableEq Party] in
theorem lift_returned {Component Error Value : Type} {view : World Party → Component}
    {put : World Party → Component → World Party} {rename : Error → SystemError}
    {reply : Value → SystemReply} {computation : Eff Fault Component Error Value}
    {world : World Party} {result : Except Error Value} {after : Component}
    (returned : (computation (view world)).Returned result after) :
    (lift view put rename reply computation world).Returned (liftResult rename reply result)
      (put world after) := by
  cases result with
  | ok value =>
      have ran : computation (view world) = .ok value after := returned
      simp [Outcome.Returned, liftResult, lift, zoom, ran]
  | error error =>
      have ran : computation (view world) = .err error after := returned
      simp [Outcome.Returned, liftResult, lift, zoom, ran]

/-- Everything a call can do to the world. -/
inductive WorldStep (world : World Party) :
    SystemOp Party → Except SystemError SystemReply → World Party → Prop where
  | sent {party : Party} {epCap : CapHandle} {msg : Message} {transfer : Option CapHandle}
      {result : Except IpcError SendOutcome} {after : IpcState}
      (step : SendStep (seenBy world party) epCap msg transfer result after) :
      WorldStep world (.ipcSend party epCap msg transfer) (liftResult .ipc .sent result)
        (putBack world party after)
  | received {party : Party} {epCap : CapHandle} {result : Except IpcError RecvOutcome}
      {after : IpcState} (step : RecvStep (seenBy world party) epCap result after) :
      WorldStep world (.ipcRecv party epCap) (liftResult .ipc .received result)
        (putBack world party after)
  | created {endpoint : Endpoint} {head : Index} (available : world.arena.freeHead = some head)
      (vacant : Vacant world.arena head) :
      WorldStep world (.createEndpoint endpoint)
        (.ok (.created ⟨⟨head, generationAt world.arena head⟩⟩))
        { world with arena := store world.arena head endpoint }
  | arenaFull {endpoint : Endpoint} (full : world.arena.freeHead = none) :
      WorldStep world (.createEndpoint endpoint) (.error (.obj .arenaFull)) world
  | destroyed {handle : EndpointHandle} {endpoint : Endpoint}
      (stored : entryAt world.arena handle.slot.index = some endpoint)
      (own : generationAt world.arena handle.slot.index = handle.slot.generation) :
      WorldStep world (.destroyEndpoint handle) (.ok (.destroyed endpoint))
        { world with arena := release world.arena handle.slot.index }
  | stale {handle : EndpointHandle} (dead : ¬ Live world.arena handle.slot) :
      WorldStep world (.destroyEndpoint handle) (.error (.obj .invalidHandle)) world
  | table {party : Party} {op : TableOp} {result : Except CapError TableReply}
      {after : CapabilityTable}
      (returns : ∀ build, CapTable.Returns build (world.tables party) op result after) :
      WorldStep world (.table party op) (liftResult .cap .table result)
        { world with tables := Function.update world.tables party after }

end Calls

/-! ## What stays true -/

/-- Every slot whose state satisfies `Held` was last used by an endpoint that is
still live. -/
def Attended (Held : EndpointState → Prop) (arena : EndpointArena) (queues : IpcQueues) :
    Prop :=
  ∀ index, Held (stateIn queues index) → Live arena ⟨index, recordedIn queues index⟩

def Carries (state : EndpointState) : Prop := state.parked ≠ none

/-- The tables and the arena are well formed and no parked capability has outlived
its endpoint. -/
structure Sound (world : World Party) : Prop where
  tables : ∀ party, CapTable.WellFormed (world.tables party)
  arena : WellFormed world.arena
  attended : Attended Carries world.arena world.queues

section Attending

variable {Held : EndpointState → Prop} {arena : EndpointArena} {queues : IpcQueues}

theorem Attended.set_state (attended : Attended Held arena queues) {handle : EndpointHandle}
    (live : Live arena handle.slot) (state : EndpointState) :
    Attended Held arena (setState queues handle state) := by
  intro index held
  have bound : handle.slot.index < endpointArenaCapacity := live.in_range
  rw [state_in_set_state bound] at held
  rw [recorded_in_set_state bound]
  by_cases same : index = handle.slot.index
  · subst same
    rw [Function.update_self]
    exact live
  · rw [Function.update_of_ne same] at held ⊢
    exact attended index held

theorem Attended.touched {state final : IpcState}
    (attended : Attended Held state.arena state.queues) (touches : Touches state final) :
    Attended Held final.arena final.queues := by
  rw [touches.arena]
  rcases touches.queues with same | ⟨handle, fresh, live, written⟩
  · rw [same]
    exact attended
  · rw [written]
    exact attended.set_state live fresh

theorem Attended.recorded (attended : Attended Held arena queues) {handle : EndpointHandle}
    (live : Live arena handle.slot) (held : Held (stateIn queues handle.slot.index)) :
    recordedIn queues handle.slot.index = handle.slot.generation := by
  have same := (attended _ held).unique live rfl
  exact congrArg SlotId.generation same

theorem Attended.drained (attended : Attended Carries arena queues) (handle : EndpointHandle)
    (live : Live arena handle.slot) : Drained queues handle := by
  intro different
  by_contra carries
  exact different (attended.recorded live carries)

theorem Attended.store (attended : Attended Held arena queues) {head : Index}
    (vacant : Vacant arena head) (endpoint : Endpoint) :
    Attended Held (store arena head endpoint) queues := by
  intro index held
  exact live_store vacant.1 vacant.2 endpoint (attended index held)

theorem Attended.release (attended : Attended Held arena queues) {handle : EndpointHandle}
    (live : Live arena handle.slot) (dropped : ¬ Held (stateAt queues handle)) :
    Attended Held (release arena handle.slot.index) queues := by
  intro index held
  apply live_release live.in_range (attended index held)
  intro same
  have here : index = handle.slot.index := same
  subst here
  have own := attended.recorded live held
  rw [stateAt, if_pos own] at dropped
  exact dropped held

end Attending

section Steps

variable [DecidableEq Party] {world after : World Party} {op : SystemOp Party}
  {result : Except SystemError SystemReply}

theorem perform_returns (sound : Sound world) (op : SystemOp Party) :
    ∃ result after, WorldStep world op result after ∧
      ∀ build, (perform build op world).Returned result after := by
  cases op with
  | ipcSend party epCap msg transfer =>
      rcases @ipc_send_returns (seenBy world party) (sound.tables party) sound.attended.drained
        epCap msg transfer with ⟨result, after, step, returned⟩
      exact ⟨_, _, .sent step, fun build => lift_returned (returned build)⟩
  | ipcRecv party epCap =>
      rcases @ipc_recv_returns (seenBy world party) (sound.tables party) sound.attended.drained
        epCap with ⟨result, after, step, returned⟩
      exact ⟨_, _, .received step, fun build => lift_returned (returned build)⟩
  | createEndpoint endpoint =>
      cases available : world.arena.freeHead with
      | none =>
          refine ⟨_, _, .arenaFull available, fun build => ?_⟩
          simp [perform, lift, zoom, createEndpoint, allocate_full available, Outcome.Returned]
      | some head =>
          refine ⟨_, _, .created available (sound.arena.head_vacant available), fun build => ?_⟩
          simp [perform, lift, zoom, createEndpoint, allocate_run sound.arena available,
            Outcome.Returned]
  | destroyEndpoint handle =>
      by_cases live : Live world.arena handle.slot
      · rcases live with ⟨⟨endpoint, stored⟩, own⟩
        refine ⟨_, _, .destroyed stored own, fun build => ?_⟩
        simp [perform, lift, zoom, destroyEndpoint, free_run stored own, Outcome.Returned]
      · refine ⟨_, _, .stale live, fun build => ?_⟩
        simp [perform, lift, zoom, destroyEndpoint, free_stale live, Outcome.Returned]
  | table party op =>
      rcases CapTable.perform_returns (sound.tables party) op with ⟨result, after, returns⟩
      exact ⟨_, _, .table returns, fun build => lift_returned (returns build).step⟩

theorem SystemStep.world_step {build : Build} {call : SystemCall Party} (sound : Sound world)
    (step : SystemStep build world call after) : WorldStep world call.op call.result after := by
  rcases perform_returns sound call.op with ⟨result, final, listed, returned⟩
  rcases (returned build).unique step with ⟨sameResult, sameWorld⟩
  rw [← sameResult, ← sameWorld]
  exact listed

theorem sent_takes {party : Party} {epCap : CapHandle} {msg : Message}
    {transfer : Option CapHandle} {outcome : SendOutcome}
    (step : WorldStep world (.ipcSend party epCap msg transfer) (.ok (.sent outcome)) after) :
    ∃ owned, Takes (world.tables party) transfer owned (after.tables party) := by
  generalize reported : (Except.ok (.sent outcome) : Except SystemError SystemReply) = result at step
  cases step with
  | sent step =>
      rw [put_back_table]
      cases step with
      | refused early => cases reported
      | busy names live holds => cases reported
      | kept names live => cases reported
      | delivered names live waiting takes => exact ⟨_, takes⟩
      | enqueued names live idle takes => exact ⟨_, takes⟩

theorem received_installs {party : Party} {epCap : CapHandle} {msg : Message}
    {fresh : Option CapHandle}
    (step : WorldStep world (.ipcRecv party epCap) (.ok (.received (.received msg fresh))) after) :
    ∃ cap, Installs (world.tables party) cap fresh (after.tables party) := by
  generalize reported : (Except.ok (.received (.received msg fresh)) :
    Except SystemError SystemReply) = result at step
  cases step with
  | received step =>
      rw [put_back_table]
      cases step with
      | refused unnamed => cases reported
      | full names live parked noRoom => cases reported
      | pending names live idle => cases reported
      | busy names live waiting => cases reported
      | received names live stored installs =>
          cases reported
          exact ⟨_, installs⟩

theorem tables_well_formed {party : Party} {table : CapabilityTable}
    (tables : ∀ other, CapTable.WellFormed (world.tables other))
    (fresh : CapTable.WellFormed table) (other : Party) :
    CapTable.WellFormed (Function.update world.tables party table other) := by
  by_cases same : other = party
  · rw [same, Function.update_self]
    exact fresh
  · rw [Function.update_of_ne same]
    exact tables other

theorem Sound.touched (sound : Sound world) {party : Party} {final : IpcState}
    (touches : Touches (seenBy world party) final) : Sound (putBack world party final) where
  tables := tables_well_formed sound.tables (touches.table (sound.tables party))
  arena := by
    rw [putBack, touches.arena]
    exact sound.arena
  attended := sound.attended.touched touches

/-- An endpoint is destroyed only while it holds no parked capability. -/
def Guarded (world : World Party) (op : SystemOp Party) : Prop :=
  ∀ handle, op = .destroyEndpoint handle → (stateAt world.queues handle).parked = none

theorem WorldStep.sound (step : WorldStep world op result after) (sound : Sound world)
    (guarded : Guarded world op) : Sound after := by
  cases step with
  | sent step => exact sound.touched step.touches
  | received step => exact sound.touched step.touches
  | created available vacant =>
      exact ⟨sound.tables, sound.arena.store available _, sound.attended.store vacant _⟩
  | arenaFull full => exact sound
  | @destroyed handle endpoint stored own =>
      have drained := guarded handle rfl
      refine ⟨sound.tables, sound.arena.release stored, ?_⟩
      apply sound.attended.release ⟨⟨endpoint, stored⟩, own⟩
      simp [Carries, drained]
  | stale dead => exact sound
  | table returns =>
      exact ⟨tables_well_formed sound.tables (returns ⟨true⟩).wellFormed, sound.arena,
        sound.attended⟩

end Steps

end Tyrne.System
