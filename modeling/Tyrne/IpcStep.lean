import Tyrne.CapTableHistory
import Tyrne.Ipc

/-!
# What a send and a receive do

An endpoint's logical state is the stored state if the recorded generation is its
own and `Idle` otherwise; every operation reads and writes only that. The step
relations below list every way a send or a receive can end, and both functions
are shown to end in one of them.
-/

namespace Tyrne.Ipc

open Tyrne.Lib.Effect
open Tyrne.Cap
open Tyrne.CapSpace (SpaceStep)
open Tyrne.CapTable (CapabilityTable lookup capTake insertRoot isFull spaceOf
  perform_returns lookup_live lookup_iff lookup_stale insert_root_run)
open Tyrne.ObjArena

set_option autoImplicit false

/-! ## Logical states -/

def stateIn (queues : IpcQueues) (index : Index) : EndpointState :=
  queues.states[index]?.getD .idle

def recordedIn (queues : IpcQueues) (index : Index) : Generation :=
  queues.slotGenerations[index]?.getD 0

/-- The state an endpoint is in: what an earlier endpoint of the slot left behind
does not count. -/
def stateAt (queues : IpcQueues) (handle : EndpointHandle) : EndpointState :=
  if recordedIn queues handle.slot.index = handle.slot.generation then
    stateIn queues handle.slot.index
  else .idle

def setState (queues : IpcQueues) (handle : EndpointHandle) (state : EndpointState) :
    IpcQueues where
  states := queues.states.setIfInBounds handle.slot.index state
  slotGenerations :=
    queues.slotGenerations.setIfInBounds handle.slot.index handle.slot.generation

/-- The queues after the endpoint's state has been looked at. -/
def touch (queues : IpcQueues) (handle : EndpointHandle) : IpcQueues :=
  setState queues handle (stateAt queues handle)

/-- Nothing an earlier endpoint of the slot left behind carries a capability. -/
def Drained (queues : IpcQueues) (handle : EndpointHandle) : Prop :=
  recordedIn queues handle.slot.index ≠ handle.slot.generation →
    (stateIn queues handle.slot.index).parked = none

section Queues

variable {queues : IpcQueues} {handle : EndpointHandle}

theorem queues_ext {other : IpcQueues} (states : stateIn queues = stateIn other)
    (recorded : recordedIn queues = recordedIn other) : queues = other := by
  have sameStates : queues.states = other.states := by
    apply Vector.ext
    intro index bound
    have same := congrFun states index
    simpa [stateIn, bound] using same
  have sameRecorded : queues.slotGenerations = other.slotGenerations := by
    apply Vector.ext
    intro index bound
    have same := congrFun recorded index
    simpa [recordedIn, bound] using same
  cases queues
  cases other
  simp only at sameStates sameRecorded
  rw [sameStates, sameRecorded]

section Bounded

variable (bound : handle.slot.index < endpointArenaCapacity)
include bound

theorem state_in_set_state (state : EndpointState) :
    stateIn (setState queues handle state) =
      Function.update (stateIn queues) handle.slot.index state := by
  funext index
  by_cases same : index = handle.slot.index
  · subst same
    simp [stateIn, setState, bound]
  · simp [stateIn, setState, same, Vector.getElem?_setIfInBounds_ne (Ne.symm same)]

theorem recorded_in_set_state (state : EndpointState) :
    recordedIn (setState queues handle state) =
      Function.update (recordedIn queues) handle.slot.index handle.slot.generation := by
  funext index
  by_cases same : index = handle.slot.index
  · subst same
    simp [recordedIn, setState, bound]
  · simp [recordedIn, setState, same, Vector.getElem?_setIfInBounds_ne (Ne.symm same)]

@[simp] theorem state_at_set_state (state : EndpointState) :
    stateAt (setState queues handle state) handle = state := by
  simp [stateAt, recorded_in_set_state bound, state_in_set_state bound]

/-- Another endpoint keeps its state, unless it is an earlier or later one of the
same slot. -/
theorem state_at_other {other : EndpointHandle} (state : EndpointState)
    (different : other.slot.index ≠ handle.slot.index) :
    stateAt (setState queues handle state) other = stateAt queues other := by
  simp [stateAt, recorded_in_set_state bound, state_in_set_state bound, different]

theorem touch_recorded (same : recordedIn queues handle.slot.index = handle.slot.generation) :
    touch queues handle = queues := by
  apply queues_ext
  · rw [touch, state_in_set_state bound, stateAt, if_pos same, Function.update_eq_self]
  · rw [touch, recorded_in_set_state bound, ← same, Function.update_eq_self]

theorem reset_run (drained : Drained queues handle) (build : Build) :
    resetIfStaleGeneration build handle queues =
      .ok handle.slot.index (touch queues handle) := by
  have recorded : queues.slotGenerations[handle.slot.index]? =
      some (recordedIn queues handle.slot.index) := by
    simp [recordedIn, bound]
  have state : queues.states[handle.slot.index]? =
      some (stateIn queues handle.slot.index) := by
    simp [stateIn, bound]
  by_cases same : recordedIn queues handle.slot.index = handle.slot.generation
  · rw [touch_recorded bound same]
    simp only [resetIfStaleGeneration, bind_run, read_run, and_then_ok, recorded, state, same,
      ne_eq, not_true_eq_false, if_false, pure_run]
  · have empty := drained same
    simp only [resetIfStaleGeneration, bind_run, read_run, and_then_ok, recorded, state, same,
      ne_eq, not_false_eq_true, if_true, empty, Option.isNone_none, debug_assert_true, write_run,
      pure_run, touch, setState, stateAt, if_false]

theorem load_run (state : EndpointState) :
    loadState handle.slot.index (setState queues handle state) =
      .ok state (setState queues handle state) := by
  simp [loadState, setState, bound]

omit bound in
theorem assign_run (first second : EndpointState) :
    assignState handle.slot.index second (setState queues handle first) =
      .ok () (setState queues handle second) := by
  simp [assignState, setState]

theorem replace_run (first second : EndpointState) :
    replaceState handle.slot.index second (setState queues handle first) =
      .ok first (setState queues handle second) := by
  simp [replaceState, load_run bound, assign_run]

/-- Replacing the state of an endpoint that has been looked at. -/
theorem replace_touched (state : EndpointState) :
    replaceState handle.slot.index state (touch queues handle) =
      .ok (stateAt queues handle) (setState queues handle state) :=
  replace_run bound (stateAt queues handle) state

theorem peek_run (drained : Drained queues handle) (build : Build) :
    peekState build handle queues = .ok (stateAt queues handle) (touch queues handle) := by
  simp [peekState, reset_run bound drained, touch, load_run bound]

theorem state_of_touched (build : Build) :
    stateOf build handle (touch queues handle) =
      .ok handle.slot.index (touch queues handle) := by
  have own : recordedIn (touch queues handle) handle.slot.index = handle.slot.generation := by
    simp [touch, recorded_in_set_state bound]
  rw [stateOf, reset_run bound (fun other => absurd own other), touch_recorded bound own]

end Bounded

end Queues

/-! ## The caller's table -/

/-- The caller holds, under `epCap`, the right `required` on the endpoint `handle`. -/
def Names (table : CapabilityTable) (epCap : CapHandle) (required : CapRights)
    (handle : EndpointHandle) : Prop :=
  ∃ cap, lookup epCap table = .ok cap table ∧ cap.rights.contains required = true ∧
    cap.object = .endpoint handle

/-- What `transfer` nominates leaves the table and becomes `owned`. -/
def Takes (table : CapabilityTable) (transfer : Option CapHandle) (owned : Option Capability)
    (after : CapabilityTable) : Prop :=
  match transfer with
  | none => owned = none ∧ after = table
  | some xfer => ∃ cap, owned = some cap ∧ lookup xfer table = .ok cap table ∧
      capTake xfer table = .ok cap after

/-- What was parked enters the table under the handle that is returned. -/
def Installs (table : CapabilityTable) (cap : Option Capability) (handle : Option CapHandle)
    (after : CapabilityTable) : Prop :=
  match cap with
  | none => handle = none ∧ after = table
  | some capability => ∃ fresh, handle = some fresh ∧
      insertRoot capability table = .ok fresh after

section Caller

variable {table : CapabilityTable}

theorem lookup_cases (table : CapabilityTable) (handle : CapHandle) :
    (∃ cap, lookup handle table = .ok cap table) ∨
      lookup handle table = .err .invalidHandle table := by
  by_cases live : ∃ entry, CapTable.Resolves table handle entry
  · rcases live with ⟨entry, resolves⟩
    exact Or.inl ⟨_, lookup_live resolves⟩
  · exact Or.inr (lookup_stale fun entry resolves => live ⟨entry, resolves⟩)

theorem names_unique {epCap : CapHandle} {required other : CapRights}
    {left right : EndpointHandle} (first : Names table epCap required left)
    (second : Names table epCap other right) : left = right := by
  rcases first with ⟨cap, found, _, object⟩
  rcases second with ⟨cap', found', _, object'⟩
  cases found.symm.trans found'
  cases object.symm.trans object'
  rfl

theorem validate_cases (epCap : CapHandle) (required : CapRights) :
    (∃ handle, Names table epCap required handle ∧
        validateEpCap epCap required table = .ok handle table) ∨
      ((∀ handle, ¬ Names table epCap required handle) ∧
        validateEpCap epCap required table = .err .invalidCapability table) := by
  rcases lookup_cases table epCap with ⟨cap, found⟩ | missing
  · have only : ∀ handle, Names table epCap required handle →
        cap.rights.contains required = true ∧ cap.object = .endpoint handle := by
      intro handle names
      rcases names with ⟨other, found', allowed, object⟩
      cases found.symm.trans found'
      exact ⟨allowed, object⟩
    by_cases allowed : cap.rights.contains required = true
    · cases object : cap.object with
      | endpoint handle =>
          refine Or.inl ⟨handle, ⟨cap, found, allowed, object⟩, ?_⟩
          simp [validateEpCap, found, allowed, object]
      | task handle =>
          refine Or.inr ⟨?_, by simp [validateEpCap, found, allowed, object]⟩
          intro other names
          simp [object] at only
          exact only other names
      | notification handle =>
          refine Or.inr ⟨?_, by simp [validateEpCap, found, allowed, object]⟩
          intro other names
          simp [object] at only
          exact only other names
    · refine Or.inr ⟨fun handle names => allowed (only handle names).1, ?_⟩
      simp [validateEpCap, found, allowed]
  · refine Or.inr ⟨?_, by simp [validateEpCap, missing]⟩
    intro handle names
    rcases names with ⟨cap, found, _⟩
    rw [missing] at found
    cases found

theorem check_transfer_cases (transfer : Option CapHandle) :
    checkTransfer transfer table = .ok () table ∨
      checkTransfer transfer table = .err .invalidTransferCap table := by
  cases transfer with
  | none => exact Or.inl rfl
  | some xfer =>
      rcases lookup_cases table xfer with ⟨cap, found⟩ | missing
      · by_cases allowed : cap.rights.contains .transfer = true
        · exact Or.inl (by simp [checkTransfer, found, allowed])
        · exact Or.inr (by simp [checkTransfer, found, allowed])
      · exact Or.inr (by simp [checkTransfer, missing])

/-- A take either moves the capability that a lookup finds out of the table, or
changes nothing. -/
theorem cap_take_cases (wellFormed : CapTable.WellFormed table) (handle : CapHandle) :
    (∃ cap after, capTake handle table = .ok cap after ∧ lookup handle table = .ok cap table) ∨
      ∃ error, capTake handle table = .err error table := by
  by_cases live : ∃ entry, CapTable.Resolves table handle entry
  · rcases live with ⟨entry, resolves⟩
    cases leaf : entry.firstChild with
    | none =>
        rcases CapTable.leaf_removal_run wellFormed resolves leaf with ⟨unlinked, _, _, taken⟩
        exact Or.inl ⟨_, _, taken, lookup_live resolves⟩
    | some child => exact Or.inr ⟨_, CapTable.cap_take_children resolves leaf⟩
  · refine Or.inr ⟨.invalidHandle, ?_⟩
    simp [capTake, CapTable.resolve_handle_stale fun entry resolves => live ⟨entry, resolves⟩]

theorem take_cap_cases (wellFormed : CapTable.WellFormed table) (transfer : Option CapHandle) :
    (∃ owned after, Takes table transfer owned after ∧
        takeCapIfSome transfer table = .ok owned after) ∨
      takeCapIfSome transfer table = .err .invalidTransferCap table := by
  cases transfer with
  | none => exact Or.inl ⟨none, table, ⟨rfl, rfl⟩, rfl⟩
  | some xfer =>
      rcases cap_take_cases wellFormed xfer with ⟨cap, after, taken, found⟩ | ⟨error, kept⟩
      · refine Or.inl ⟨some cap, after, ⟨cap, rfl, found, taken⟩, ?_⟩
        simp [takeCapIfSome, taken]
      · exact Or.inr (by simp [takeCapIfSome, kept])

theorem install_cap_run (wellFormed : CapTable.WellFormed table) (cap : Option Capability)
    (room : cap.isSome = true → isFull table = false) :
    ∃ handle after, Installs table cap handle after ∧
      installCapIfSome cap table = .ok handle after := by
  cases cap with
  | none => exact ⟨none, table, ⟨rfl, rfl⟩, rfl⟩
  | some capability =>
      cases available : table.freeHead with
      | none =>
          have spare := room rfl
          simp [isFull, available] at spare
      | some head =>
          have bound := (wellFormed.free.head_vacant available).1
          have inserted := insert_root_run available bound capability
          refine ⟨_, _, ⟨_, rfl, inserted⟩, ?_⟩
          simp [installCapIfSome, inserted]

/-- The take and the installation are table operations, so what is known of those
holds of them. -/
theorem take_step {handle : CapHandle} {cap : Capability} {after : CapabilityTable}
    (taken : capTake handle table = .ok cap after) (build : Build) :
    CapTable.TableStep build table ⟨.capTake handle, .ok (.capability cap)⟩ after := by
  simp [CapTable.TableStep, Outcome.Returned, CapTable.perform, taken]

theorem insert_step {cap : Capability} {fresh : CapHandle} {after : CapabilityTable}
    (inserted : insertRoot cap table = .ok fresh after) (build : Build) :
    CapTable.TableStep build table ⟨.insertRoot cap, .ok (.handle fresh)⟩ after := by
  simp [CapTable.TableStep, Outcome.Returned, CapTable.perform, inserted]

theorem Takes.well_formed {transfer : Option CapHandle} {owned : Option Capability}
    {after : CapabilityTable} (takes : Takes table transfer owned after)
    (wellFormed : CapTable.WellFormed table) : CapTable.WellFormed after := by
  cases transfer with
  | none =>
      rw [takes.2]
      exact wellFormed
  | some xfer =>
      rcases takes with ⟨cap, _, _, taken⟩
      exact (take_step taken ⟨true⟩).well_formed wellFormed

theorem Installs.well_formed {cap : Option Capability} {fresh : Option CapHandle}
    {after : CapabilityTable} (installs : Installs table cap fresh after)
    (wellFormed : CapTable.WellFormed table) : CapTable.WellFormed after := by
  cases cap with
  | none =>
      rw [installs.2]
      exact wellFormed
  | some capability =>
      rcases installs with ⟨handle, _, inserted⟩
      exact (insert_step inserted ⟨true⟩).well_formed wellFormed

end Caller

/-! ## Every way to end -/

/-- What a send can do. A send that fails after the queue was looked at leaves the
recorded generation as that of the endpoint and nothing else changed. -/
inductive SendStep (state : IpcState) (epCap : CapHandle) (msg : Message)
    (transfer : Option CapHandle) : Except IpcError SendOutcome → IpcState → Prop where
  | refused {error : IpcError} (early : error ≠ .queueFull) :
      SendStep state epCap msg transfer (.error error) state
  | busy {handle : EndpointHandle} (names : Names state.table epCap .send handle)
      (live : Live state.arena handle.slot)
      (holds : (stateAt state.queues handle).stored.isSome = true) :
      SendStep state epCap msg transfer (.error .queueFull)
        { state with queues := touch state.queues handle }
  | kept {handle : EndpointHandle} (names : Names state.table epCap .send handle)
      (live : Live state.arena handle.slot) :
      SendStep state epCap msg transfer (.error .invalidTransferCap)
        { state with queues := touch state.queues handle }
  | delivered {handle : EndpointHandle} {owned : Option Capability} {after : CapabilityTable}
      (names : Names state.table epCap .send handle) (live : Live state.arena handle.slot)
      (waiting : stateAt state.queues handle = .recvWaiting)
      (takes : Takes state.table transfer owned after) :
      SendStep state epCap msg transfer (.ok .delivered)
        { state with queues := setState state.queues handle (.recvComplete msg owned),
                     table := after }
  | enqueued {handle : EndpointHandle} {owned : Option Capability} {after : CapabilityTable}
      (names : Names state.table epCap .send handle) (live : Live state.arena handle.slot)
      (idle : stateAt state.queues handle = .idle)
      (takes : Takes state.table transfer owned after) :
      SendStep state epCap msg transfer (.ok .enqueued)
        { state with queues := setState state.queues handle (.sendPending msg owned),
                     table := after }

/-- What a receive can do. -/
inductive RecvStep (state : IpcState) (epCap : CapHandle) :
    Except IpcError RecvOutcome → IpcState → Prop where
  | refused (unnamed : ∀ handle, Names state.table epCap .recv handle →
        ¬ Live state.arena handle.slot) :
      RecvStep state epCap (.error .invalidCapability) state
  | full {handle : EndpointHandle} (names : Names state.table epCap .recv handle)
      (live : Live state.arena handle.slot)
      (parked : (stateAt state.queues handle).parked.isSome = true)
      (noRoom : isFull state.table = true) :
      RecvStep state epCap (.error .receiverTableFull)
        { state with queues := touch state.queues handle }
  | received {handle : EndpointHandle} {msg : Message} {cap : Option Capability}
      {fresh : Option CapHandle} {after : CapabilityTable}
      (names : Names state.table epCap .recv handle) (live : Live state.arena handle.slot)
      (stored : (stateAt state.queues handle).stored = some (msg, cap))
      (installs : Installs state.table cap fresh after) :
      RecvStep state epCap (.ok (.received msg fresh))
        { state with queues := setState state.queues handle .idle, table := after }
  | pending {handle : EndpointHandle} (names : Names state.table epCap .recv handle)
      (live : Live state.arena handle.slot) (idle : stateAt state.queues handle = .idle) :
      RecvStep state epCap (.ok .pending)
        { state with queues := setState state.queues handle .recvWaiting }
  | busy {handle : EndpointHandle} (names : Names state.table epCap .recv handle)
      (live : Live state.arena handle.slot)
      (waiting : stateAt state.queues handle = .recvWaiting) :
      RecvStep state epCap (.error .queueFull)
        { state with queues := touch state.queues handle }

/-- What a send and a receive have in common: the arena stays, the state of at most
one live endpoint is written, and the table stays well formed. -/
structure Touches (state final : IpcState) : Prop where
  arena : final.arena = state.arena
  queues : final.queues = state.queues ∨ ∃ handle fresh, Live state.arena handle.slot ∧
    final.queues = setState state.queues handle fresh
  table : CapTable.WellFormed state.table → CapTable.WellFormed final.table

theorem SendStep.touches {state final : IpcState} {epCap : CapHandle} {msg : Message}
    {transfer : Option CapHandle} {result : Except IpcError SendOutcome}
    (step : SendStep state epCap msg transfer result final) : Touches state final := by
  cases step with
  | refused early => exact ⟨rfl, Or.inl rfl, id⟩
  | busy names live holds => exact ⟨rfl, Or.inr ⟨_, _, live, rfl⟩, id⟩
  | kept names live => exact ⟨rfl, Or.inr ⟨_, _, live, rfl⟩, id⟩
  | delivered names live waiting takes =>
      exact ⟨rfl, Or.inr ⟨_, _, live, rfl⟩, takes.well_formed⟩
  | enqueued names live idle takes =>
      exact ⟨rfl, Or.inr ⟨_, _, live, rfl⟩, takes.well_formed⟩

theorem RecvStep.touches {state final : IpcState} {epCap : CapHandle}
    {result : Except IpcError RecvOutcome} (step : RecvStep state epCap result final) :
    Touches state final := by
  cases step with
  | refused unnamed => exact ⟨rfl, Or.inl rfl, id⟩
  | full names live parked noRoom => exact ⟨rfl, Or.inr ⟨_, _, live, rfl⟩, id⟩
  | received names live stored installs =>
      exact ⟨rfl, Or.inr ⟨_, _, live, rfl⟩, installs.well_formed⟩
  | pending names live idle => exact ⟨rfl, Or.inr ⟨_, _, live, rfl⟩, id⟩
  | busy names live waiting => exact ⟨rfl, Or.inr ⟨_, _, live, rfl⟩, id⟩

section Outcomes

variable {state : IpcState} {epCap : CapHandle}

theorem on_table_ok {Value : Type} {computation : CallerM Value} {value : Value}
    {after : CapabilityTable} (ran : computation state.table = .ok value after) :
    onTable computation state = .ok value { state with table := after } :=
  zoom_ok ran

theorem on_table_err {Value : Type} {computation : CallerM Value} {error : IpcError}
    {after : CapabilityTable} (ran : computation state.table = .err error after) :
    onTable computation state = .err error { state with table := after } :=
  zoom_err ran

theorem require_live {handle : EndpointHandle} (live : Live state.arena handle.slot) :
    requireEndpoint handle state = .ok () state := by
  rcases get_iff.mpr live with ⟨endpoint, found⟩
  simp [requireEndpoint, found]

theorem require_stale {handle : EndpointHandle} (stale : ¬ Live state.arena handle.slot) :
    requireEndpoint handle state = .err .invalidCapability state := by
  simp [requireEndpoint, get_stale stale]

/-! A send and a receive up to the look into the queue, one way out at a time. -/

section Entries

variable {handle : EndpointHandle} {build : Build} {error : IpcError} {msg : Message}
  {transfer : Option CapHandle}

theorem ipc_send_unnamed (refused : validateEpCap epCap .send state.table = .err error state.table) :
    ipcSend build epCap msg transfer state = .err error state := by
  simp only [ipcSend, bind_run, on_table_err refused, and_then_err]

theorem ipc_recv_unnamed (refused : validateEpCap epCap .recv state.table = .err error state.table) :
    ipcRecv build epCap state = .err error state := by
  simp only [ipcRecv, bind_run, on_table_err refused, and_then_err]

section Send

variable (validated : validateEpCap epCap .send state.table = .ok handle state.table)
include validated

theorem ipc_send_unchecked (unchecked : checkTransfer transfer state.table = .err error state.table) :
    ipcSend build epCap msg transfer state = .err error state := by
  simp only [ipcSend, bind_run, on_table_ok validated, and_then_ok, on_table_err unchecked,
    and_then_err]

variable (checked : checkTransfer transfer state.table = .ok () state.table)
include checked

theorem ipc_send_dead (stale : ¬ Live state.arena handle.slot) :
    ipcSend build epCap msg transfer state = .err .invalidCapability state := by
  simp only [ipcSend, bind_run, on_table_ok validated, and_then_ok, on_table_ok checked,
    require_stale stale, and_then_err]

theorem ipc_send_live (live : Live state.arena handle.slot)
    (drained : Drained state.queues handle) :
    ipcSend build epCap msg transfer state =
      (if (stateAt state.queues handle).stored.isSome then fail .queueFull
        else commitSend build handle msg transfer : IpcM SendOutcome)
          { state with queues := touch state.queues handle } := by
  simp only [ipcSend, bind_run, on_table_ok validated, and_then_ok, on_table_ok checked,
    require_live live, onQueues, zoom, peek_run live.in_range drained]

end Send

section Recv

variable (validated : validateEpCap epCap .recv state.table = .ok handle state.table)
include validated

theorem ipc_recv_dead (stale : ¬ Live state.arena handle.slot) :
    ipcRecv build epCap state = .err .invalidCapability state := by
  simp only [ipcRecv, bind_run, on_table_ok validated, and_then_ok, require_stale stale,
    and_then_err]

theorem ipc_recv_live (live : Live state.arena handle.slot)
    (drained : Drained state.queues handle) :
    ipcRecv build epCap state =
      (if (stateAt state.queues handle).parked.isSome && isFull state.table then
          fail .receiverTableFull
        else commitRecv build handle : IpcM RecvOutcome)
          { state with queues := touch state.queues handle } := by
  simp only [ipcRecv, bind_run, on_table_ok validated, and_then_ok, require_live live, onQueues,
    zoom, peek_run live.in_range drained, read_run]

end Recv

end Entries

/-! ### Behind the queue check -/

section CommitRuns

variable {handle : EndpointHandle} (build : Build)

theorem commit_send_kept {msg : Message} {transfer : Option CapHandle}
    (kept : takeCapIfSome transfer state.table = .err .invalidTransferCap state.table) :
    commitSend build handle msg transfer { state with queues := touch state.queues handle } =
      .err .invalidTransferCap { state with queues := touch state.queues handle } := by
  simp only [commitSend, bind_run, onTable, zoom, kept, and_then_err]

variable (live : Live state.arena handle.slot)
include live

section Taken

variable {transfer : Option CapHandle} {owned : Option Capability} {after : CapabilityTable}
  (taken : takeCapIfSome transfer state.table = .ok owned after)
include taken

theorem commit_send_waiting (waiting : stateAt state.queues handle = .recvWaiting)
    (msg : Message) :
    commitSend build handle msg transfer { state with queues := touch state.queues handle } =
      .ok .delivered { state with
        queues := setState state.queues handle (.recvComplete msg owned)
        table := after } := by
  have replaced := @replace_touched state.queues handle live.in_range .idle
  rw [waiting] at replaced
  simp only [commitSend, bind_run, onTable, onQueues, zoom, taken, and_then_ok,
    state_of_touched live.in_range build, replaced, assign_run, pure_run]

theorem commit_send_idle (idle : stateAt state.queues handle = .idle) (msg : Message) :
    commitSend build handle msg transfer { state with queues := touch state.queues handle } =
      .ok .enqueued { state with
        queues := setState state.queues handle (.sendPending msg owned)
        table := after } := by
  have replaced := @replace_touched state.queues handle live.in_range .idle
  rw [idle] at replaced
  simp only [commitSend, bind_run, onTable, onQueues, zoom, taken, and_then_ok,
    state_of_touched live.in_range build, replaced, assign_run, pure_run]

end Taken

theorem commit_recv_waiting (waiting : stateAt state.queues handle = .recvWaiting) :
    commitRecv build handle { state with queues := touch state.queues handle } =
      .err .queueFull { state with queues := touch state.queues handle } := by
  have replaced := @replace_touched state.queues handle live.in_range .idle
  have same : touch state.queues handle = setState state.queues handle .recvWaiting := by
    rw [touch, waiting]
  rw [waiting] at replaced
  simp only [commitRecv, bind_run, onQueues, zoom, and_then_ok,
    state_of_touched live.in_range build, replaced, assign_run, fail_run]
  rw [same]

theorem commit_recv_idle (idle : stateAt state.queues handle = .idle) :
    commitRecv build handle { state with queues := touch state.queues handle } =
      .ok .pending { state with queues := setState state.queues handle .recvWaiting } := by
  have replaced := @replace_touched state.queues handle live.in_range .idle
  rw [idle] at replaced
  simp only [commitRecv, bind_run, onQueues, zoom, and_then_ok,
    state_of_touched live.in_range build, replaced, assign_run, pure_run]

/-- A pending message and a completed one are delivered alike. -/
theorem commit_recv_stored {msg : Message} {cap : Option Capability} {fresh : Option CapHandle}
    {after : CapabilityTable} (stored : (stateAt state.queues handle).stored = some (msg, cap))
    (installed : installCapIfSome cap state.table = .ok fresh after) :
    commitRecv build handle { state with queues := touch state.queues handle } =
      .ok (.received msg fresh) { state with
        queues := setState state.queues handle .idle
        table := after } := by
  have replaced := @replace_touched state.queues handle live.in_range .idle
  cases found : stateAt state.queues handle with
  | idle | recvWaiting => simp [found, EndpointState.stored] at stored
  | sendPending held carried | recvComplete held carried =>
      rw [found] at replaced stored
      cases stored
      simp only [commitRecv, deliver, bind_run, onTable, onQueues, zoom, and_then_ok,
        state_of_touched live.in_range build, replaced, installed, pure_run]

end CommitRuns

section Commits

variable {handle : EndpointHandle} (live : Live state.arena handle.slot)
  (wellFormed : CapTable.WellFormed state.table)
include live wellFormed

theorem commit_send_returns (names : Names state.table epCap .send handle) (msg : Message)
    (transfer : Option CapHandle) (empty : (stateAt state.queues handle).stored = none) :
    ∃ result after, SendStep state epCap msg transfer result after ∧
      ∀ build, Outcome.Returned (commitSend build handle msg transfer
        { state with queues := touch state.queues handle }) result after := by
  rcases take_cap_cases wellFormed transfer with ⟨owned, after, takes, taken⟩ | kept
  · cases found : stateAt state.queues handle with
    | recvWaiting =>
        refine ⟨_, _, .delivered names live found takes, fun build => ?_⟩
        rw [commit_send_waiting build live taken found]
        rfl
    | idle =>
        refine ⟨_, _, .enqueued names live found takes, fun build => ?_⟩
        rw [commit_send_idle build live taken found]
        rfl
    | sendPending msg cap => simp [found, EndpointState.stored] at empty
    | recvComplete msg cap => simp [found, EndpointState.stored] at empty
  · refine ⟨_, _, .kept names live, fun build => ?_⟩
    rw [commit_send_kept build kept]
    rfl

theorem commit_recv_returns (names : Names state.table epCap .recv handle)
    (room : (stateAt state.queues handle).parked.isSome = true → isFull state.table = false) :
    ∃ result after, RecvStep state epCap result after ∧
      ∀ build, Outcome.Returned (commitRecv build handle
        { state with queues := touch state.queues handle }) result after := by
  have delivers : ∀ msg cap, (stateAt state.queues handle).stored = some (msg, cap) →
      ∃ result after, RecvStep state epCap result after ∧
        ∀ build, Outcome.Returned (commitRecv build handle
          { state with queues := touch state.queues handle }) result after := by
    intro msg cap stored
    rw [EndpointState.parked, stored] at room
    rcases install_cap_run wellFormed cap room with ⟨fresh, after, installs, installed⟩
    refine ⟨_, _, .received names live stored installs, fun build => ?_⟩
    rw [commit_recv_stored build live stored installed]
    rfl
  cases found : stateAt state.queues handle with
  | recvWaiting =>
      refine ⟨_, _, .busy names live found, fun build => ?_⟩
      rw [commit_recv_waiting build live found]
      rfl
  | idle =>
      refine ⟨_, _, .pending names live found, fun build => ?_⟩
      rw [commit_recv_idle build live found]
      rfl
  | sendPending msg cap => exact delivers msg cap (by rw [found]; rfl)
  | recvComplete msg cap => exact delivers msg cap (by rw [found]; rfl)

end Commits

variable (wellFormed : CapTable.WellFormed state.table)
  (drained : ∀ handle, Live state.arena handle.slot → Drained state.queues handle)
include wellFormed drained

/-- A send comes back, in every build alike, in one of the ways listed. -/
theorem ipc_send_returns (epCap : CapHandle) (msg : Message) (transfer : Option CapHandle) :
    ∃ result after, SendStep state epCap msg transfer result after ∧
      ∀ build, Outcome.Returned (ipcSend build epCap msg transfer state) result after := by
  rcases @validate_cases state.table epCap .send with ⟨handle, names, validated⟩ | ⟨_, refused⟩
  · rcases @check_transfer_cases state.table transfer with checked | unchecked
    · by_cases live : Live state.arena handle.slot
      · have entered := fun build =>
          @ipc_send_live state epCap handle build msg transfer validated checked live
            (drained handle live)
        cases stored : (stateAt state.queues handle).stored with
        | some pair =>
            simp only [stored, Option.isSome_some, if_true] at entered
            exact ⟨_, _, .busy names live (by simp [stored]), entered⟩
        | none =>
            rcases commit_send_returns live wellFormed names msg transfer stored with
              ⟨result, after, step, committed⟩
            simp only [stored, Option.isSome_none, Bool.false_eq_true, if_false] at entered
            refine ⟨result, after, step, fun build => ?_⟩
            rw [entered build]
            exact committed build
      · exact ⟨.error .invalidCapability, state, .refused (by decide),
          fun _ => ipc_send_dead validated checked live⟩
    · exact ⟨.error .invalidTransferCap, state, .refused (by decide),
        fun _ => ipc_send_unchecked validated unchecked⟩
  · exact ⟨.error .invalidCapability, state, .refused (by decide),
      fun _ => ipc_send_unnamed refused⟩

/-- A receive comes back, in every build alike, in one of the ways listed. -/
theorem ipc_recv_returns (epCap : CapHandle) :
    ∃ result after, RecvStep state epCap result after ∧
      ∀ build, Outcome.Returned (ipcRecv build epCap state) result after := by
  rcases @validate_cases state.table epCap .recv with
    ⟨handle, names, validated⟩ | ⟨unnamed, refused⟩
  · by_cases live : Live state.arena handle.slot
    · have entered := fun build =>
        @ipc_recv_live state epCap handle build validated live (drained handle live)
      by_cases blocked : ((stateAt state.queues handle).parked.isSome &&
          isFull state.table) = true
      · rcases Bool.and_eq_true_iff.mp blocked with ⟨parked, noRoom⟩
        simp only [blocked, if_true] at entered
        exact ⟨_, _, .full names live parked noRoom, entered⟩
      · have room : (stateAt state.queues handle).parked.isSome = true →
            isFull state.table = false := by
          intro parked
          rw [parked, Bool.true_and] at blocked
          exact Bool.eq_false_iff.mpr blocked
        rcases commit_recv_returns live wellFormed names room with
          ⟨result, after, step, committed⟩
        simp only [blocked, Bool.false_eq_true, if_false] at entered
        refine ⟨result, after, step, fun build => ?_⟩
        rw [entered build]
        exact committed build
    · refine ⟨.error .invalidCapability, state, .refused ?_, fun _ => ipc_recv_dead validated live⟩
      intro other otherNames
      rw [names_unique otherNames names]
      exact live
  · refine ⟨.error .invalidCapability, state, .refused ?_, fun _ => ipc_recv_unnamed refused⟩
    intro other otherNames
    exact absurd otherNames (unnamed other)

end Outcomes

/-! ## Deliveries -/

section Deliveries

variable {state : IpcState} {epCap : CapHandle} {transfer : Option CapHandle}
  {handle : EndpointHandle}

theorem validate_named {table : CapabilityTable} {required : CapRights}
    (names : Names table epCap required handle) :
    validateEpCap epCap required table = .ok handle table := by
  rcases @validate_cases table epCap required with ⟨other, otherNames, validated⟩ | ⟨nobody, _⟩
  · rw [names_unique names otherNames]
    exact validated
  · exact absurd names (nobody handle)

theorem takes_run {table after : CapabilityTable} {owned : Option Capability}
    (takes : Takes table transfer owned after) :
    takeCapIfSome transfer table = .ok owned after := by
  cases transfer with
  | none =>
      rcases takes with ⟨rfl, rfl⟩
      rfl
  | some xfer =>
      rcases takes with ⟨cap, rfl, _, taken⟩
      simp [takeCapIfSome, taken]

theorem ipc_send_delivers {owned : Option Capability} {after : CapabilityTable}
    (names : Names state.table epCap .send handle) (live : Live state.arena handle.slot)
    (drained : Drained state.queues handle)
    (waiting : stateAt state.queues handle = .recvWaiting)
    (checked : checkTransfer transfer state.table = .ok () state.table)
    (takes : Takes state.table transfer owned after) (build : Build) (msg : Message) :
    ipcSend build epCap msg transfer state = .ok .delivered
      { state with queues := setState state.queues handle (.recvComplete msg owned),
                   table := after } := by
  have bound : handle.slot.index < endpointArenaCapacity := live.in_range
  have replaced := @replace_touched state.queues handle bound .idle
  have empty : EndpointState.recvWaiting.stored.isSome = false := rfl
  rw [waiting] at replaced
  rw [ipc_send_live (validate_named names) checked live drained, waiting, empty]
  simp only [Bool.false_eq_true, if_false, commitSend, bind_run, onTable, onQueues, zoom, takes_run takes, and_then_ok,
    state_of_touched bound build, replaced, assign_run, pure_run]

theorem ipc_send_enqueues {owned : Option Capability} {after : CapabilityTable}
    (names : Names state.table epCap .send handle) (live : Live state.arena handle.slot)
    (drained : Drained state.queues handle) (idle : stateAt state.queues handle = .idle)
    (checked : checkTransfer transfer state.table = .ok () state.table)
    (takes : Takes state.table transfer owned after) (build : Build) (msg : Message) :
    ipcSend build epCap msg transfer state = .ok .enqueued
      { state with queues := setState state.queues handle (.sendPending msg owned),
                   table := after } := by
  have empty : EndpointState.idle.stored.isSome = false := rfl
  rw [ipc_send_live (validate_named names) checked live drained, idle, empty]
  simp only [Bool.false_eq_true, if_false]
  exact commit_send_idle build live (takes_run takes) idle msg

theorem sent_checked {build : Build} {msg : Message} {outcome : SendOutcome} {after : IpcState}
    (names : Names state.table epCap .send handle)
    (ran : ipcSend build epCap msg transfer state = .ok outcome after) :
    checkTransfer transfer state.table = .ok () state.table := by
  rcases @check_transfer_cases state.table transfer with checked | unchecked
  · exact checked
  · rw [ipc_send_unchecked (validate_named names) unchecked] at ran
    cases ran

end Deliveries

end Tyrne.Ipc
