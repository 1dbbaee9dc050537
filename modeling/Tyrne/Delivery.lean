import Tyrne.System

/-!
# Messages are delivered once and in order

What successful sends put into an endpoint comes out of it by successful receives,
in the same order, through the same endpoint and with the same capability, as long
as no endpoint is destroyed. Each step balances: what was stored before and what
the step accepted is what the step handed out and what is stored after.
-/

namespace Tyrne.System

open Tyrne.Lib.Effect
open Tyrne.Lib.Runs
open Tyrne.Cap
open Tyrne.CapTable (CapabilityTable lookup)
open Tyrne.ObjArena
open Tyrne.Ipc

set_option autoImplicit false

/-- A message and the capability that travels with it. -/
abbrev Parcel : Type := Message × Option Capability

def capabilityAt (table : CapabilityTable) (handle : CapHandle) : Option Capability :=
  match lookup handle table with
  | .ok capability _ => some capability
  | _ => none

def endpointAt (table : CapabilityTable) (epCap : CapHandle) : Option EndpointHandle :=
  match capabilityAt table epCap with
  | some ⟨_, .endpoint handle⟩ => some handle
  | _ => none

variable {Party : Type}

/-- What a successful send put into `handle`. The capability is the one its transfer
handle named in the sender's table at the call. -/
def acceptedBy (handle : EndpointHandle)
    (taken : Transition (World Party) (SystemCall Party)) : Option Parcel :=
  match taken.label.op, taken.label.result with
  | .ipcSend party epCap msg transfer, .ok _ =>
      if endpointAt (taken.before.tables party) epCap = some handle then
        some (msg, transfer.bind (capabilityAt (taken.before.tables party)))
      else none
  | _, _ => none

/-- What a successful receive took out of `handle`. The capability is the one the
returned handle names in the receiver's table after the call. -/
def handedOutBy (handle : EndpointHandle)
    (taken : Transition (World Party) (SystemCall Party)) : Option Parcel :=
  match taken.label.op, taken.label.result with
  | .ipcRecv party epCap, .ok (.received (.received msg cap)) =>
      if endpointAt (taken.before.tables party) epCap = some handle then
        some (msg, cap.bind (capabilityAt (taken.after.tables party)))
      else none
  | _, _ => none

def accepted (handle : EndpointHandle) (trace : SystemTrace Party) : List Parcel :=
  trace.filterMap (acceptedBy handle)

def handedOut (handle : EndpointHandle) (trace : SystemTrace Party) : List Parcel :=
  trace.filterMap (handedOutBy handle)

/-! ## Tables -/

section Tables

variable {table after : CapabilityTable}

theorem capability_at_found {handle : CapHandle} {capability : Capability}
    (found : lookup handle table = .ok capability table) :
    capabilityAt table handle = some capability := by
  simp [capabilityAt, found]

theorem endpoint_at_named {epCap : CapHandle} {required : CapRights} {handle : EndpointHandle}
    (names : Names table epCap required handle) : endpointAt table epCap = some handle := by
  rcases names with ⟨⟨rights, object⟩, found, _, names⟩
  cases names
  simp [endpointAt, capability_at_found found]

theorem takes_capability {transfer : Option CapHandle} {owned : Option Capability}
    (takes : Takes table transfer owned after) :
    transfer.bind (capabilityAt table) = owned := by
  cases transfer with
  | none => exact takes.1.symm
  | some xfer =>
      rcases takes with ⟨cap, same, found, _⟩
      rw [same]
      exact capability_at_found found

theorem insert_lookup (wellFormed : CapTable.WellFormed table) {capability : Capability}
    {fresh : CapHandle} (inserted : CapTable.insertRoot capability table = .ok fresh after) :
    lookup fresh after = .ok capability after := by
  have step := (insert_step inserted ⟨true⟩).simulates wellFormed
  generalize space : CapTable.spaceOf after = final at step
  cases step with
  | @rooted index cap free =>
      have resolves : (CapTable.spaceOf after).Resolves
          ⟨index, (CapTable.spaceOf table).generation index⟩ ⟨capability, none, 0⟩ := by
        rw [space]
        exact CapSpace.place_resolves _ _ _
      exact CapTable.lookup_of_space resolves

theorem installs_capability {cap : Option Capability} {fresh : Option CapHandle}
    (installs : Installs table cap fresh after) (wellFormed : CapTable.WellFormed table) :
    fresh.bind (capabilityAt after) = cap := by
  cases cap with
  | none =>
      rw [installs.1]
      rfl
  | some capability =>
      rcases installs with ⟨handle, same, inserted⟩
      rw [same]
      exact capability_at_found (insert_lookup wellFormed inserted)

end Tables

/-! ## One step -/

/-- The endpoint is doing something: its slot is not idle. -/
def Busy (state : EndpointState) : Prop := state ≠ .idle

section Queues

variable {arena : EndpointArena} {queues : IpcQueues} {handle other : EndpointHandle}

/-- Writing the state of a live endpoint leaves that of every other endpoint: a slot is
busy only with the endpoint that lives there. -/
theorem state_elsewhere (occupied : Attended Busy arena queues)
    (live : Live arena handle.slot) (state : EndpointState) (different : other ≠ handle) :
    stateAt (setState queues handle state) other = stateAt queues other := by
  have bound : handle.slot.index < endpointArenaCapacity := live.in_range
  by_cases same : other.slot.index = handle.slot.index
  · have generations : handle.slot.generation ≠ other.slot.generation := by
      intro equal
      apply different
      cases other with
      | mk slot =>
          cases handle with
          | mk home =>
              cases slot
              cases home
              simp_all
    have after : stateAt (setState queues handle state) other = .idle := by
      rw [stateAt, recorded_in_set_state bound, same, Function.update_self, if_neg generations]
    have before : stateAt queues other = .idle := by
      rw [stateAt, same]
      by_cases recorded : recordedIn queues handle.slot.index = other.slot.generation
      · rw [if_pos recorded]
        by_contra busy
        exact generations ((occupied.recorded live busy).symm.trans recorded)
      · rw [if_neg recorded]
    rw [after, before]
  · rw [state_at_other bound state same]

theorem states_set (occupied : Attended Busy arena queues) (live : Live arena handle.slot)
    (state : EndpointState) :
    stateAt (setState queues handle state) =
      Function.update (stateAt queues) handle state := by
  funext other
  by_cases same : other = handle
  · rw [same, state_at_set_state live.in_range, Function.update_self]
  · rw [Function.update_of_ne same]
    exact state_elsewhere occupied live state same

theorem states_touch (occupied : Attended Busy arena queues) (live : Live arena handle.slot) :
    stateAt (touch queues handle) = stateAt queues := by
  rw [touch, states_set occupied live, Function.update_eq_self]

end Queues

section Balance

def Balanced (handle : EndpointHandle)
    (taken : Transition (World Party) (SystemCall Party)) : Prop :=
  (stateAt taken.before.queues handle).stored.toList ++ (acceptedBy handle taken).toList =
    (handedOutBy handle taken).toList ++ (stateAt taken.after.queues handle).stored.toList

theorem balanced_of_same {handle : EndpointHandle}
    {taken : Transition (World Party) (SystemCall Party)}
    (nothingIn : acceptedBy handle taken = none) (nothingOut : handedOutBy handle taken = none)
    (same : (stateAt taken.after.queues handle).stored =
      (stateAt taken.before.queues handle).stored) : Balanced handle taken := by
  rw [Balanced, nothingIn, nothingOut, same]
  simp

theorem stored_touch {arena : EndpointArena} {queues : IpcQueues} {home : EndpointHandle}
    (occupied : Attended Busy arena queues) (live : Live arena home.slot)
    (handle : EndpointHandle) :
    (stateAt (touch queues home) handle).stored = (stateAt queues handle).stored := by
  rw [states_touch occupied live]

theorem balanced_put {home handle : EndpointHandle} {parcel : Parcel} {fresh : EndpointState}
    {taken : Transition (World Party) (SystemCall Party)}
    (occupied : Attended Busy taken.before.arena taken.before.queues)
    (live : Live taken.before.arena home.slot)
    (empty : (stateAt taken.before.queues home).stored = none)
    (stores : fresh.stored = some parcel)
    (written : taken.after.queues = setState taken.before.queues home fresh)
    (putIn : acceptedBy handle taken = if home = handle then some parcel else none)
    (nothingOut : handedOutBy handle taken = none) : Balanced handle taken := by
  rw [Balanced, putIn, nothingOut, written]
  by_cases same : home = handle
  · subst same
    rw [state_at_set_state live.in_range, empty, stores]
    simp
  · rw [state_elsewhere occupied live fresh (Ne.symm same), if_neg same]
    simp

theorem balanced_get {home handle : EndpointHandle} {parcel : Parcel}
    {taken : Transition (World Party) (SystemCall Party)}
    (occupied : Attended Busy taken.before.arena taken.before.queues)
    (live : Live taken.before.arena home.slot)
    (stores : (stateAt taken.before.queues home).stored = some parcel)
    (written : taken.after.queues = setState taken.before.queues home .idle)
    (nothingIn : acceptedBy handle taken = none)
    (takenOut : handedOutBy handle taken = if home = handle then some parcel else none) :
    Balanced handle taken := by
  rw [Balanced, nothingIn, takenOut, written]
  by_cases same : home = handle
  · subst same
    rw [state_at_set_state live.in_range, stores]
    simp [EndpointState.stored]
  · rw [state_elsewhere occupied live .idle (Ne.symm same), if_neg same]
    simp

variable [DecidableEq Party] {world after : World Party} {op : SystemOp Party}
  {result : Except SystemError SystemReply}

omit [DecidableEq Party] in
theorem accepted_sent {party : Party} {epCap : CapHandle} {msg : Message}
    {transfer : Option CapHandle} {outcome : SendOutcome} {home handle : EndpointHandle}
    {owned : Option Capability} {table : CapabilityTable}
    (names : Names (world.tables party) epCap .send home)
    (takes : Takes (world.tables party) transfer owned table) :
    acceptedBy handle ⟨world, ⟨.ipcSend party epCap msg transfer, .ok (.sent outcome)⟩, after⟩ =
      if home = handle then some (msg, owned) else none := by
  have named : endpointAt (world.tables party) epCap = some home := endpoint_at_named names
  have moved : transfer.bind (capabilityAt (world.tables party)) = owned := takes_capability takes
  simp [acceptedBy, named, moved]

theorem send_balanced {party : Party} {epCap : CapHandle} {msg : Message}
    {transfer : Option CapHandle} {outcome : Except IpcError SendOutcome} {final : IpcState}
    (step : SendStep (seenBy world party) epCap msg transfer outcome final)
    (occupied : Attended Busy world.arena world.queues) (handle : EndpointHandle) :
    Balanced handle ⟨world, ⟨.ipcSend party epCap msg transfer, liftResult .ipc .sent outcome⟩,
      putBack world party final⟩ := by
  cases step with
  | refused early => exact balanced_of_same rfl rfl rfl
  | busy names live holds =>
      exact balanced_of_same rfl rfl (stored_touch occupied live handle)
  | kept names live => exact balanced_of_same rfl rfl (stored_touch occupied live handle)
  | @delivered home owned table names live waiting takes =>
      have empty : (stateAt world.queues home).stored = none := by
        rw [show stateAt world.queues home = .recvWaiting from waiting]
        rfl
      have stores : (EndpointState.recvComplete msg owned).stored = some (msg, owned) := rfl
      exact balanced_put occupied live empty stores rfl (accepted_sent names takes) rfl
  | @enqueued home owned table names live idle takes =>
      have empty : (stateAt world.queues home).stored = none := by
        rw [show stateAt world.queues home = .idle from idle]
        rfl
      have stores : (EndpointState.sendPending msg owned).stored = some (msg, owned) := rfl
      exact balanced_put occupied live empty stores rfl (accepted_sent names takes) rfl

theorem recv_balanced {party : Party} {epCap : CapHandle}
    {outcome : Except IpcError RecvOutcome} {final : IpcState}
    (step : RecvStep (seenBy world party) epCap outcome final)
    (occupied : Attended Busy world.arena world.queues)
    (wellFormed : CapTable.WellFormed (world.tables party)) (handle : EndpointHandle) :
    Balanced handle ⟨world, ⟨.ipcRecv party epCap, liftResult .ipc .received outcome⟩,
      putBack world party final⟩ := by
  cases step with
  | refused unnamed => exact balanced_of_same rfl rfl rfl
  | full names live parked noRoom =>
      exact balanced_of_same rfl rfl (stored_touch occupied live handle)
  | @received home msg cap fresh table names live stored installs =>
      refine balanced_get occupied live stored rfl rfl ?_
      have named : endpointAt (world.tables party) epCap = some home := endpoint_at_named names
      have moved : fresh.bind (capabilityAt table) = cap := installs_capability installs wellFormed
      simp [handedOutBy, liftResult, named, putBack, moved]
  | @pending home names live idle =>
      refine balanced_of_same rfl rfl ?_
      by_cases same : handle = home
      · subst same
        rw [show stateAt world.queues handle = .idle from idle]
        rw [putBack, state_at_set_state live.in_range]
        rfl
      · exact congrArg EndpointState.stored (state_elsewhere occupied live _ same)
  | busy names live waiting => exact balanced_of_same rfl rfl (stored_touch occupied live handle)

theorem WorldStep.balanced (step : WorldStep world op result after)
    (occupied : Attended Busy world.arena world.queues)
    (tables : ∀ party, CapTable.WellFormed (world.tables party)) (handle : EndpointHandle) :
    Balanced handle ⟨world, ⟨op, result⟩, after⟩ := by
  cases step with
  | sent step => exact send_balanced step occupied handle
  | received step => exact recv_balanced step occupied (tables _) handle
  | created available vacant => exact balanced_of_same rfl rfl rfl
  | arenaFull full => exact balanced_of_same rfl rfl rfl
  | destroyed stored own => exact balanced_of_same rfl rfl rfl
  | stale dead => exact balanced_of_same rfl rfl rfl
  | table returns => exact balanced_of_same rfl rfl rfl

/-! ## Whole runs -/

/-- No messages are under way. -/
structure Fresh (world : World Party) : Prop where
  tables : ∀ party, CapTable.WellFormed (world.tables party)
  arena : WellFormed world.arena
  queues : world.queues = IpcQueues.new

theorem state_in_new (index : Index) : stateIn IpcQueues.new index = .idle := by
  by_cases bound : index < endpointArenaCapacity
  · simp [stateIn, IpcQueues.new, bound]
  · simp [stateIn, Vector.getElem?_eq_none (Nat.le_of_not_lt bound)]

omit [DecidableEq Party] in
theorem Fresh.attended (fresh : Fresh world) {Held : EndpointState → Prop}
    (idle : ¬ Held .idle) : Attended Held world.arena world.queues := by
  intro index held
  rw [fresh.queues, state_in_new] at held
  exact absurd held idle

omit [DecidableEq Party] in
theorem Fresh.sound (fresh : Fresh world) : Sound world :=
  ⟨fresh.tables, fresh.arena, fresh.attended (by simp [Carries, EndpointState.parked,
    EndpointState.stored])⟩

theorem WorldStep.occupied (step : WorldStep world op result after)
    (kept : ∀ handle, op ≠ .destroyEndpoint handle)
    (occupied : Attended Busy world.arena world.queues) :
    Attended Busy after.arena after.queues := by
  cases step with
  | @sent party _ _ _ _ _ step =>
      exact @Attended.touched Busy (seenBy world party) _ occupied step.touches
  | @received party _ _ _ step =>
      exact @Attended.touched Busy (seenBy world party) _ occupied step.touches
  | created available vacant => exact occupied.store vacant _
  | arenaFull full => exact occupied
  | @destroyed handle endpoint stored own => exact absurd rfl (kept handle)
  | stale dead => exact occupied
  | table returns => exact occupied

/-- What is known at every point of a run in which no endpoint is destroyed. -/
structure InOrder (trace : SystemTrace Party) (after : World Party) : Prop where
  sound : Sound after
  occupied : Attended Busy after.arena after.queues
  delivery : ∀ handle, accepted handle trace =
    handedOut handle trace ++ (stateAt after.queues handle).stored.toList

theorem InOrder.step {build : Build} {trace : SystemTrace Party} {call : SystemCall Party}
    (known : InOrder trace world) (step : SystemStep build world call after)
    (kept : ∀ handle, call.op ≠ .destroyEndpoint handle) :
    InOrder (trace ++ [⟨world, call, after⟩]) after where
  sound := by
    apply (step.world_step known.sound).sound known.sound
    intro handle destroys
    exact absurd destroys (kept handle)
  occupied := (step.world_step known.sound).occupied kept known.occupied
  delivery := by
    intro handle
    have balanced := (step.world_step known.sound).balanced known.occupied known.sound.tables handle
    have before := known.delivery handle
    simp only [accepted, handedOut, List.filterMap_append] at before ⊢
    rw [before, List.append_assoc, List.append_assoc]
    exact congrArg (trace.filterMap (handedOutBy handle) ++ ·) balanced

/-- What a single call of such a run does besides: a capability handle that is sent or
returned names a capability, and a call that fails loses no parcel. -/
structure Careful (taken : Transition (World Party) (SystemCall Party)) : Prop where
  sent : ∀ party epCap msg xfer outcome,
    taken.label = ⟨.ipcSend party epCap msg (some xfer), .ok (.sent outcome)⟩ →
      ∃ capability, lookup xfer (taken.before.tables party) =
        .ok capability (taken.before.tables party)
  received : ∀ party epCap msg handle,
    taken.label = ⟨.ipcRecv party epCap, .ok (.received (.received msg (some handle)))⟩ →
      ∃ capability, lookup handle (taken.after.tables party) =
        .ok capability (taken.after.tables party)
  failed : ∀ error, taken.label.result = .error error → ∀ handle,
    (stateAt taken.after.queues handle).stored = (stateAt taken.before.queues handle).stored

theorem WorldStep.careful (step : WorldStep world op result after) (sound : Sound world)
    (occupied : Attended Busy world.arena world.queues) :
    Careful ⟨world, ⟨op, result⟩, after⟩ where
  sent := by
    intro party epCap msg xfer outcome same
    cases same
    rcases sent_takes step with ⟨owned, capability, _, found, _⟩
    exact ⟨capability, found⟩
  received := by
    intro party epCap msg handle same
    cases same
    rcases received_installs step with ⟨cap, installs⟩
    cases cap with
    | none => exact absurd installs.1 (by simp)
    | some capability =>
        rcases installs with ⟨fresh, same, inserted⟩
        cases same
        exact ⟨capability, insert_lookup (sound.tables party) inserted⟩
  failed := by
    intro error same handle
    cases same
    have balanced := step.balanced occupied sound.tables handle
    have nothingIn : acceptedBy handle ⟨world, ⟨op, .error error⟩, after⟩ = none := by
      cases op <;> rfl
    have nothingOut : handedOutBy handle ⟨world, ⟨op, .error error⟩, after⟩ = none := by
      cases op <;> rfl
    rw [Balanced, nothingIn, nothingOut] at balanced
    have firsts := congrArg List.head? balanced
    simpa using firsts.symm

theorem in_order_of_run {build : Build} {start : World Party} {trace : SystemTrace Party}
    (fresh : Fresh start) (run : Run (SystemStep build) start trace after)
    (kept : ∀ taken ∈ trace, ∀ handle, taken.label.op ≠ .destroyEndpoint handle) :
    InOrder trace after := by
  induction run with
  | nil =>
      refine ⟨fresh.sound, fresh.attended (by simp [Busy]), ?_⟩
      intro handle
      have idle : stateAt IpcQueues.new handle = .idle := by
        simp [stateAt, state_in_new]
      simp [accepted, handedOut, fresh.queues, idle, EndpointState.stored]
  | @snoc earlier middle final label ran step ih =>
      apply InOrder.step (ih fun taken member => kept taken (by simp [member])) step
      exact kept ⟨middle, label, final⟩ (by simp)

/-- In every run without destruction, what successful sends put into an endpoint is
what successful receives took out of it, in order, and then what it still stores.
A handle that a receive returns names the capability that was sent, no failing call
loses a parcel, and nothing ever stops a call: from every world that is reached each
call comes back, in every build alike. -/
theorem exactly_once_in_order {build : Build} {start : World Party} {trace : SystemTrace Party}
    (fresh : Fresh start) (run : Run (SystemStep build) start trace after)
    (kept : ∀ taken ∈ trace, ∀ handle, taken.label.op ≠ .destroyEndpoint handle) :
    (∀ handle, accepted handle trace =
        handedOut handle trace ++ (stateAt after.queues handle).stored.toList) ∧
      (∀ taken ∈ trace, Careful taken) ∧
      ∀ op, ∃ result final, ∀ anyBuild, (perform anyBuild op after).Returned result final := by
  have known := in_order_of_run fresh run kept
  refine ⟨known.delivery, ?_, ?_⟩
  · intro taken member
    rcases run_member run member with ⟨front, early, step, back, rfl⟩
    have before := in_order_of_run fresh early fun other inFront =>
      kept other (by simp [inFront])
    exact (step.world_step before.sound).careful before.sound before.occupied
  · intro op
    rcases perform_returns known.sound op with ⟨result, final, _, returned⟩
    exact ⟨result, final, returned⟩

end Balance

def soloWorld : World Unit where
  arena := store new 0 ⟨7⟩
  queues := IpcQueues.new
  tables := fun _ => CapTable.stateAfter ⟨true⟩ (.insertRoot ⟨⟨127⟩, .endpoint ⟨⟨0, 0⟩⟩⟩)
    CapTable.new

theorem solo_world_fresh : Fresh soloWorld where
  tables := fun _ => by
    have inserted : CapTable.TableStep ⟨true⟩ CapTable.new
        ⟨.insertRoot ⟨⟨127⟩, .endpoint ⟨⟨0, 0⟩⟩⟩, .ok (.handle ⟨0, 0⟩)⟩ (soloWorld.tables ()) := rfl
    exact inserted.well_formed CapTable.new_well_formed
  arena := new_well_formed.store rfl _
  queues := rfl

def stepTo (op : SystemOp Unit) (world : World Unit) : World Unit :=
  (perform ⟨true⟩ op world).state?.getD world

def threeWords : Message := ⟨1, #v[2, 3, 4]⟩

def soloTrace : SystemTrace Unit :=
  let send : SystemOp Unit := .ipcSend () ⟨0, 0⟩ ⟨1, #v[2, 3, 4]⟩ none
  let recv : SystemOp Unit := .ipcRecv () ⟨0, 0⟩
  let sent := stepTo send soloWorld
  [⟨soloWorld, ⟨send, .ok (.sent .enqueued)⟩, sent⟩,
    ⟨sent, ⟨recv, .ok (.received (.received ⟨1, #v[2, 3, 4]⟩ none))⟩, stepTo recv sent⟩]

theorem exactly_once_in_order_solo :
    handedOut ⟨⟨0, 0⟩⟩ soloTrace = [(⟨1, #v[2, 3, 4]⟩, none)] ∧
      accepted ⟨⟨0, 0⟩⟩ soloTrace = [(⟨1, #v[2, 3, 4]⟩, none)] := by
  have run : Run (SystemStep ⟨true⟩) soloWorld soloTrace
      (stepTo (.ipcRecv () ⟨0, 0⟩)
        (stepTo (.ipcSend () ⟨0, 0⟩ ⟨1, #v[2, 3, 4]⟩ none) soloWorld)) :=
    .snoc (.snoc .nil rfl) rfl
  have kept : ∀ taken ∈ soloTrace, ∀ handle, taken.label.op ≠ .destroyEndpoint handle := by
    simp [soloTrace]
  have out : handedOut ⟨⟨0, 0⟩⟩ soloTrace = [(⟨1, #v[2, 3, 4]⟩, none)] := rfl
  refine ⟨out, ?_⟩
  rw [(exactly_once_in_order solo_world_fresh run kept).1 ⟨⟨0, 0⟩⟩, out]
  rfl

end Tyrne.System
