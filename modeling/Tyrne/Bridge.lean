import Tyrne.Delivery
import Tyrne.SchedStep

/-!
# What the bridge functions do

A view of the kernel is the roster, the shared objects, and where each task goes on.
The step relation on views lists everything a bridge call, or a task that goes on
behind a switch, can do. The kernel takes only such steps, and the only thing that
can stop it inside a bridge function is a fault of an IPC operation.
-/

namespace Tyrne.Sched

open Tyrne.Lib.Effect
open Tyrne.Cap
open Tyrne.CapTable (CapabilityTable lookup)
open Tyrne.Ipc
open Tyrne.System (World seenBy putBack endpointAt capabilityAt)

set_option autoImplicit false

structure View (Party : Type) where
  roster : Roster
  world : World Party
  frames : Index → Frame Party

variable {Party Context Machine : Type}

namespace View

def turn (view : View Party) (suspend : Frame Party) : View Party :=
  match view.roster.ready with
  | [] => view
  | _ :: _ =>
      { view with
        roster := view.roster.rotate
        frames := Function.update view.frames (slotOf view.roster.current) suspend }

def turned (view : View Party) (alone : Reply) : Reply :=
  match view.roster.ready with
  | [] => alone
  | _ :: _ => .switched

def frame (view : View Party) : Frame Party := view.frames (slotOf view.roster.current)

def back (view : View Party) : View Party :=
  { view with frames := Function.update view.frames (slotOf view.roster.current) .outside }

def withWorld (view : View Party) (world : World Party) : View Party :=
  { view with world := world }

end View

def viewOf (kernel : Kernel Party Context Machine) : View Party :=
  ⟨rosterOf kernel.sched, kernel.world, kernel.frames⟩

/-- An IPC result as the bridge reports it. -/
def bridged {Value : Type} (reply : Value → Reply) :
    Except IpcError Value → Except SchedError Reply
  | .ok value => .ok (reply value)
  | .error error => .error (.ipc error)

section Steps

variable [DecidableEq Party] (build : Build)

def Sends (world : World Party) (party : Party) (epCap : CapHandle) (msg : Message)
    (transfer : Option CapHandle) (result : Except IpcError SendOutcome)
    (after : World Party) : Prop :=
  ∃ final, (ipcSend build epCap msg transfer (seenBy world party)).Returned result final ∧
    after = putBack world party final

/-- The receive inside `ipc_recv_and_yield`, in Phase 1 or Phase 3. -/
def Receives (world : World Party) (party : Party) (epCap : CapHandle)
    (result : Except IpcError RecvOutcome) (after : World Party) : Prop :=
  ∃ final, (ipcRecv build epCap (seenBy world party)).Returned result final ∧
    after = putBack world party final

inductive ViewStep (view : View Party) :
    Event Party Machine → Except SchedError Reply → View Party → Prop where
  | yielded {guard : IrqState} (rest : view.frame = .outside) :
      ViewStep view (.call .yieldNow) (.ok (view.turned .yielded)) (view.turn (.inYield guard))
  | sent {party : Party} {epCap : CapHandle} {msg : Message} {transfer : Option CapHandle}
      {result : Except IpcError SendOutcome} {world : World Party}
      (rest : view.frame = .outside)
      (sends : Sends build view.world party epCap msg transfer result world)
      (quiet : result ≠ .ok .delivered) :
      ViewStep view (.call (.ipcSendAndYield party epCap msg transfer)) (bridged .sent result)
        (view.withWorld world)
  | delivered {party : Party} {epCap : CapHandle} {msg : Message} {transfer : Option CapHandle}
      {ep : EndpointHandle} {world : World Party} {woken : View Party} {guard : IrqState}
      (rest : view.frame = .outside)
      (resolves : endpointAt (view.world.tables party) epCap = some ep)
      (sends : Sends build view.world party epCap msg transfer (.ok .delivered) world)
      (wakes : woken = ⟨view.roster.wake ep, world, view.frames⟩) :
      ViewStep view (.call (.ipcSendAndYield party epCap msg transfer))
        (.ok (woken.turned (.sent .delivered))) (woken.turn (.inSend guard .delivered))
  | received {party : Party} {epCap : CapHandle} {result : Except IpcError RecvOutcome}
      {world : World Party} (rest : view.frame = .outside)
      (receives : Receives build view.world party epCap result world)
      (done : result ≠ .ok .pending) :
      ViewStep view (.call (.ipcRecvAndYield party epCap)) (bridged .received result)
        (view.withWorld world)
  | deadlocked {party : Party} {epCap : CapHandle} {world : World Party}
      (rest : view.frame = .outside)
      (receives : Receives build view.world party epCap (.ok .pending) world)
      (alone : view.roster.ready = []) :
      ViewStep view (.call (.ipcRecvAndYield party epCap)) (.error .deadlock)
        (view.withWorld world)
  | blocked {party : Party} {epCap : CapHandle} {ep : EndpointHandle} {world : World Party}
      {guard : IrqState} (rest : view.frame = .outside)
      (resolves : endpointAt (view.world.tables party) epCap = some ep)
      (receives : Receives build view.world party epCap (.ok .pending) world)
      (others : view.roster.ready ≠ []) :
      ViewStep view (.call (.ipcRecvAndYield party epCap)) (.ok .switched)
        ⟨view.roster.block ep, world,
          Function.update view.frames (slotOf view.roster.current) (.inRecv guard party epCap)⟩
  | backFromYield {guard : IrqState} (suspended : view.frame = .inYield guard) :
      ViewStep view .resume (.ok .yielded) view.back
  | backFromSend {guard : IrqState} {outcome : SendOutcome}
      (suspended : view.frame = .inSend guard outcome) :
      ViewStep view .resume (.ok (.sent outcome)) view.back
  | collected {guard : IrqState} {party : Party} {epCap : CapHandle}
      {result : Except IpcError RecvOutcome} {world : World Party}
      (suspended : view.frame = .inRecv guard party epCap)
      (receives : Receives build view.world party epCap result world)
      (done : result ≠ .ok .pending) :
      ViewStep view .resume (bridged .received result) (view.back.withWorld world)
  | pendingAfterResume {guard : IrqState} {party : Party} {epCap : CapHandle}
      {world : World Party} (suspended : view.frame = .inRecv guard party epCap)
      (receives : Receives build view.world party epCap (.ok .pending) world) :
      ViewStep view .resume (.error (.ipc .pendingAfterResume)) (view.back.withWorld world)
  | elsewhere {world : World Party} {machine : Machine} (rest : view.frame = .outside) :
      ViewStep view (.elsewhere world machine) (.ok .computed) (view.withWorld world)

end Steps

/-- The kernel is as the view shows it. -/
structure Displays (kernel : Kernel Party Context Machine) (view : View Party) : Prop where
  sched : Shows kernel.sched view.roster
  world : kernel.world = view.world
  frames : kernel.frames = view.frames

theorem Displays.view_of {kernel : Kernel Party Context Machine} {view : View Party}
    (displays : Displays kernel view) : viewOf kernel = view := by
  rw [viewOf, roster_of_shows displays.sched, displays.world, displays.frames]

/-- The scheduler has a current task and its roster is in order. -/
structure Intact (kernel : Kernel Party Context Machine) : Prop where
  shows : Shows kernel.sched (rosterOf kernel.sched)
  orderly : Orderly (rosterOf kernel.sched)

theorem Displays.intact {kernel : Kernel Party Context Machine} {view : View Party}
    (displays : Displays kernel view) (orderly : Orderly view.roster) : Intact kernel := by
  have same := roster_of_shows displays.sched
  refine ⟨?_, ?_⟩
  · rw [same]
    exact displays.sched
  · rw [same]
    exact orderly

/-! ## Switches -/

section Switches

variable {kernel : Kernel Party Context Machine} {view : View Party}

variable (cpu : Cpu Context Machine) (build : Build)

theorem switch_context_run {currentIdx nextIdx : Index} (displays : Displays kernel view)
    (apart : currentIdx ≠ nextIdx) (leaves : currentIdx < taskArenaCapacity)
    (comes : nextIdx < taskArenaCapacity) (suspend : IrqState → Frame Party) :
    ∃ guard after, switchContext cpu build currentIdx nextIdx suspend kernel = .ok () after ∧
      Displays after { view with
        frames := Function.update view.frames currentIdx (suspend guard) } := by
  let masked := cpu.disableIrqs kernel.machine
  have current : ∃ context, kernel.sched.contexts[currentIdx]? = some context :=
    ⟨_, Vector.getElem?_eq_getElem leaves⟩
  have next : ∃ context, kernel.sched.contexts[nextIdx]? = some context :=
    ⟨_, Vector.getElem?_eq_getElem comes⟩
  rcases current with ⟨current, currentFound⟩
  rcases next with ⟨next, nextFound⟩
  let switched := cpu.contextSwitch current next masked.2
  refine ⟨masked.1, { kernel with
    sched := { kernel.sched with
      contexts := kernel.sched.contexts.setIfInBounds currentIdx switched.1 }
    machine := switched.2
    frames := Function.update kernel.frames currentIdx (suspend masked.1) }, ?_, ?_⟩
  · simp [switchContext, apart, currentFound, nextFound, masked, switched]
  · have shows := displays.sched
    refine ⟨⟨shows.current, shows.ready, shows.states, shows.handles⟩, displays.world, ?_⟩
    rw [← displays.frames]

theorem yield_to_run (displays : Displays kernel view) (orderly : Orderly view.roster)
    (suspend : IrqState → Frame Party) :
    ∃ guard after, yieldTo cpu build suspend kernel =
        .ok (!view.roster.ready.isEmpty) after ∧
      Displays after (view.turn (suspend guard)) := by
  rcases yield_prelude_run displays.sched orderly with ⟨sched, ran, shows⟩
  have preluded : (onSched yieldPrelude : KernelM Party Context Machine _) kernel =
      .ok view.roster.switchOf { kernel with sched := sched } := zoom_ok ran
  cases line : view.roster.ready with
  | nil =>
      rw [Roster.switchOf, line] at preluded
      have still : view.roster.rotate = view.roster := by simp [Roster.rotate, line]
      rw [still] at shows
      refine ⟨0, { kernel with sched := sched }, by simp [yieldTo, preluded], ?_⟩
      simp only [View.turn, line]
      exact ⟨shows, displays.world, displays.frames⟩
  | cons next rest =>
      rw [Roster.switchOf, line] at preluded
      have own : view.roster.current ∈ view.roster.runnable := List.mem_cons_self
      have member := next_runnable line
      have apart := orderly.next_apart line
      have rotated : Displays { kernel with sched := sched }
          { view with roster := view.roster.rotate } :=
        ⟨shows, displays.world, displays.frames⟩
      rcases switch_context_run cpu build rotated apart (orderly.slot_in_range own)
        (orderly.slot_in_range member) suspend with ⟨guard, after, switchRan, final⟩
      refine ⟨guard, after, by simp [yieldTo, preluded, switchRan], ?_⟩
      simp only [View.turn, line]
      exact final

theorem wake_run (displays : Displays kernel view) (orderly : Orderly view.roster)
    (ep : EndpointHandle) :
    ∃ after, (onSched (unblockReceiverOn ep) : KernelM Party Context Machine _) kernel =
        .ok () after ∧ Displays after { view with roster := view.roster.wake ep } := by
  rcases unblock_receiver_run displays.sched orderly ep with ⟨sched, ran, shows⟩
  exact ⟨_, zoom_ok ran, shows, displays.world, displays.frames⟩

/-- The rest of `ipc_send_and_yield` once the message has gone to a waiting receiver. -/
theorem delivered_run (displays : Displays kernel view) (orderly : Orderly view.roster)
    (ep : EndpointHandle) :
    ∃ guard awake switched after,
      (onSched (unblockReceiverOn ep) : KernelM Party Context Machine _) kernel =
        .ok () awake ∧
      yieldTo cpu build (fun guard => .inSend guard .delivered) awake = .ok switched after ∧
      (if switched then Reply.switched else .sent .delivered) =
        View.turned ⟨view.roster.wake ep, view.world, view.frames⟩ (.sent .delivered) ∧
      Displays after (View.turn ⟨view.roster.wake ep, view.world, view.frames⟩
        (.inSend guard .delivered)) := by
  rcases wake_run displays orderly ep with ⟨awake, wakeRan, woken⟩
  rcases yield_to_run cpu build woken (orderly.wake ep)
    (fun guard => .inSend guard .delivered) with ⟨guard, after, yieldRan, final⟩
  refine ⟨guard, awake, _, after, wakeRan, yieldRan, ?_, final⟩
  cases line : (view.roster.wake ep).ready with
  | nil => simp [View.turned, line]
  | cons next others => simp [View.turned, line]

theorem blocked_run (displays : Displays kernel view) (orderly : Orderly view.roster)
    (ep : EndpointHandle) (others : view.roster.ready ≠ [])
    (suspend : IrqState → Frame Party) :
    ∃ guard indices middle after,
      (onSched (blockPrelude build ep) : KernelM Party Context Machine _) kernel =
        .ok indices middle ∧
      switchContext cpu build indices.1 indices.2 suspend middle = .ok () after ∧
      Displays after ⟨view.roster.block ep, view.world,
        Function.update view.frames (slotOf view.roster.current) (suspend guard)⟩ := by
  rcases List.exists_cons_of_ne_nil others with ⟨next, behind, line⟩
  rcases block_prelude_run displays.sched orderly build ep line with ⟨sched, ran, shows⟩
  have own : view.roster.current ∈ view.roster.runnable := List.mem_cons_self
  have member := next_runnable line
  have apart := orderly.next_apart line
  have blocked : Displays { kernel with sched := sched }
      { view with roster := view.roster.block ep } :=
    ⟨shows, displays.world, displays.frames⟩
  rcases switch_context_run cpu build blocked apart (orderly.slot_in_range own)
    (orderly.slot_in_range member) suspend with ⟨guard, after, switchRan, final⟩
  exact ⟨guard, _, _, after, zoom_ok ran, switchRan, final⟩

/-- Phase 2 of `ipc_recv_and_yield` with nobody else in line takes back what it did. -/
theorem deadlock_run (displays : Displays kernel view) (orderly : Orderly view.roster)
    (ep : EndpointHandle) (alone : view.roster.ready = []) :
    (onSched (blockPrelude build ep) : KernelM Party Context Machine _) kernel =
      .err .deadlock kernel :=
  zoom_err (block_prelude_alone displays.sched orderly build ep alone)

theorem leave_run (displays : Displays kernel view) (guard : IrqState) :
    ∃ after, leave cpu (slotOf view.roster.current) guard kernel = .ok () after ∧
      Displays after view.back := by
  refine ⟨_, rfl, displays.sched, displays.world, ?_⟩
  simp only [View.back, displays.frames]

end Switches

/-! ## Parts of the bridge functions -/

section Parts

variable [DecidableEq Party] {kernel : Kernel Party Context Machine} {view : View Party}

theorem as_party_ok {Value : Type} {party : Party} {computation : IpcM Value} {value : Value}
    {final : IpcState} (ran : computation (seenBy kernel.world party) = .ok value final) :
    asParty party computation kernel =
      .ok value { kernel with world := putBack kernel.world party final } := by
  simp [asParty, mapFault, zoom, ran]

theorem as_party_err {Value : Type} {party : Party} {computation : IpcM Value}
    {error : IpcError} {final : IpcState}
    (ran : computation (seenBy kernel.world party) = .err error final) :
    asParty party computation kernel =
      .err (.ipc error) { kernel with world := putBack kernel.world party final } := by
  simp [asParty, mapFault, zoom, ran]

theorem as_party_fault {Value : Type} {party : Party} {computation : IpcM Value}
    {reason : Fault} (ran : computation (seenBy kernel.world party) = .fault reason) :
    asParty party computation kernel = .fault (.inner reason) := by
  simp [asParty, mapFault, zoom, ran]

theorem put_back_seen (world : World Party) (party : Party) :
    putBack world party (seenBy world party) = world := by
  simp [putBack, seenBy, Function.update_eq_self]

/-- Resolving finds the endpoint the capability names, or the IPC operation that
follows would refuse the capability too. -/
theorem resolve_cases (table : CapabilityTable) (epCap : CapHandle) :
    (∃ ep, endpointAt table epCap = some ep ∧ resolveEpCap epCap table = .ok ep table) ∨
      (resolveEpCap epCap table = .err .invalidCapability table ∧
        ∀ required, validateEpCap epCap required table = .err .invalidCapability table) := by
  rcases lookup_cases table epCap with ⟨⟨rights, object⟩, found⟩ | missing
  · cases object with
    | endpoint ep =>
        refine Or.inl ⟨ep, ?_, by simp [resolveEpCap, found]⟩
        simp [endpointAt, capabilityAt, found]
    | task handle | notification handle =>
        refine Or.inr ⟨by simp [resolveEpCap, found], fun required => ?_⟩
        by_cases allowed : rights.contains required = true
        · simp [validateEpCap, found, allowed]
        · simp [validateEpCap, found, allowed]
  · exact Or.inr ⟨by simp [resolveEpCap, missing], fun required => by
      simp [validateEpCap, missing]⟩

theorem resolve_ok {party : Party} {epCap : CapHandle} {ep : EndpointHandle}
    (ran : resolveEpCap epCap (kernel.world.tables party) = .ok ep (kernel.world.tables party)) :
    asParty party (onTable (resolveEpCap epCap)) kernel = .ok ep kernel := by
  have seen : onTable (resolveEpCap epCap) (seenBy kernel.world party) =
      .ok ep (seenBy kernel.world party) := on_table_ok ran
  rw [as_party_ok seen, put_back_seen]

theorem resolve_err {party : Party} {epCap : CapHandle}
    (ran : resolveEpCap epCap (kernel.world.tables party) =
      .err .invalidCapability (kernel.world.tables party)) :
    asParty party (onTable (resolveEpCap epCap)) kernel =
      .err (.ipc .invalidCapability) kernel := by
  have seen : onTable (resolveEpCap epCap) (seenBy kernel.world party) =
      .err .invalidCapability (seenBy kernel.world party) := on_table_err ran
  rw [as_party_err seen, put_back_seen]

section Operations

variable {build : Build} {party : Party} {epCap : CapHandle} {msg : Message}
  {transfer : Option CapHandle} {final : IpcState} (displays : Displays kernel view)
include displays

omit [DecidableEq Party] in
theorem Displays.stored (world : World Party) :
    Displays { kernel with world := world } (view.withWorld world) :=
  ⟨displays.sched, rfl, displays.frames⟩

theorem Displays.sends {result : Except IpcError SendOutcome}
    (returned : (ipcSend build epCap msg transfer (seenBy kernel.world party)).Returned
      result final) :
    Sends build view.world party epCap msg transfer result
      (putBack kernel.world party final) := by
  rw [← displays.world]
  exact ⟨final, returned, rfl⟩

theorem Displays.receives {result : Except IpcError RecvOutcome}
    (returned : (ipcRecv build epCap (seenBy kernel.world party)).Returned result final) :
    Receives build view.world party epCap result (putBack kernel.world party final) := by
  rw [← displays.world]
  exact ⟨final, returned, rfl⟩

theorem Displays.send_refused
    (refused : validateEpCap epCap .send (kernel.world.tables party) =
      .err .invalidCapability (kernel.world.tables party)) :
    Sends build view.world party epCap msg transfer (.error .invalidCapability) view.world := by
  rw [← displays.world]
  exact ⟨_, @ipc_send_unnamed (seenBy kernel.world party) _ _ _ _ _ refused,
    (put_back_seen _ _).symm⟩

theorem Displays.recv_refused
    (refused : validateEpCap epCap .recv (kernel.world.tables party) =
      .err .invalidCapability (kernel.world.tables party)) :
    Receives build view.world party epCap (.error .invalidCapability) view.world := by
  rw [← displays.world]
  exact ⟨_, @ipc_recv_unnamed (seenBy kernel.world party) _ _ _ refused, (put_back_seen _ _).symm⟩

end Operations

end Parts

/-! ## The bridge functions -/

theorem Orderly.turn {view : View Party} (orderly : Orderly view.roster)
    (suspend : Frame Party) : Orderly (view.turn suspend).roster := by
  cases line : view.roster.ready with
  | nil =>
      simp only [View.turn, line]
      exact orderly
  | cons next rest =>
      simp only [View.turn, line]
      exact orderly.rotate

section Calls

variable [DecidableEq Party] (cpu : Cpu Context Machine) (build : Build)

def Answers (view : View Party) (event : Event Party Machine)
    (outcome : Outcome SchedFault SchedError (Kernel Party Context Machine) Reply) : Prop :=
  (∃ reason, outcome = .fault (.inner reason)) ∨
    ∃ result after next, outcome.Returned result after ∧
      ViewStep build view event result next ∧ Orderly next.roster ∧ Displays after next

variable {kernel : Kernel Party Context Machine} {view : View Party}
  (displays : Displays kernel view) (orderly : Orderly view.roster)
include displays orderly

theorem yield_now_answers (rest : view.frame = .outside) :
    Answers build view (.call .yieldNow) (yieldNow cpu build kernel) := by
  rcases yield_to_run cpu build displays orderly .inYield with ⟨guard, after, ran, final⟩
  refine Or.inr ⟨_, after, _, ?_, .yielded rest, orderly.turn _, final⟩
  cases line : view.roster.ready with
  | nil =>
      rw [line] at ran
      simp [Outcome.Returned, yieldNow, ran, View.turned, line]
  | cons next others =>
      rw [line] at ran
      simp [Outcome.Returned, yieldNow, ran, View.turned, line]

theorem send_answers (rest : view.frame = .outside) (party : Party) (epCap : CapHandle)
    (msg : Message) (transfer : Option CapHandle) :
    Answers build view (.call (.ipcSendAndYield party epCap msg transfer))
      (ipcSendAndYield cpu build party epCap msg transfer kernel) := by
  rcases resolve_cases (kernel.world.tables party) epCap with
    ⟨ep, named, resolved⟩ | ⟨unresolved, refused⟩
  · have resolves := @resolve_ok _ _ _ _ kernel _ _ _ resolved
    cases ran : ipcSend build epCap msg transfer (seenBy kernel.world party) with
    | fault reason =>
        refine Or.inl ⟨reason, ?_⟩
        simp [ipcSendAndYield, resolves, as_party_fault ran]
    | err error final =>
        have sends := @Displays.sends _ _ _ _ _ _ build party epCap msg transfer final displays
          (.error error) ran
        refine Or.inr ⟨_, _, _, ?_, .sent rest sends (by simp), orderly, displays.stored _⟩
        simp [Outcome.Returned, bridged, ipcSendAndYield, resolves, as_party_err ran]
    | ok outcome final =>
        have sends := @Displays.sends _ _ _ _ _ _ build party epCap msg transfer final displays
          (.ok outcome) ran
        have stored := displays.stored (putBack kernel.world party final)
        cases outcome with
        | enqueued =>
            refine Or.inr ⟨_, _, _, ?_, .sent rest sends (by simp), orderly, stored⟩
            simp [Outcome.Returned, bridged, ipcSendAndYield, resolves, as_party_ok ran]
        | delivered =>
            rw [displays.world] at named
            rcases delivered_run cpu build stored orderly ep with
              ⟨guard, awake, switched, after, wakeRan, yieldRan, reply, final⟩
            refine Or.inr ⟨_, after, _, ?_, .delivered rest named sends rfl,
              (orderly.wake ep).turn _, final⟩
            simp only [View.withWorld] at reply
            rw [← reply]
            cases switched with
            | true =>
                simp [Outcome.Returned, ipcSendAndYield, resolves, as_party_ok ran, wakeRan,
                  yieldRan]
            | false =>
                simp [Outcome.Returned, ipcSendAndYield, resolves, as_party_ok ran, wakeRan,
                  yieldRan]
  · refine Or.inr ⟨_, kernel, _, ?_, .sent rest (displays.send_refused (refused .send)) (by simp),
      orderly, displays⟩
    simp [Outcome.Returned, bridged, ipcSendAndYield, resolve_err unresolved]

theorem recv_answers (rest : view.frame = .outside) (party : Party) (epCap : CapHandle) :
    Answers build view (.call (.ipcRecvAndYield party epCap))
      (ipcRecvAndYield cpu build party epCap kernel) := by
  rcases resolve_cases (kernel.world.tables party) epCap with
    ⟨ep, named, resolved⟩ | ⟨unresolved, refused⟩
  · have resolves := @resolve_ok _ _ _ _ kernel _ _ _ resolved
    cases ran : ipcRecv build epCap (seenBy kernel.world party) with
    | fault reason =>
        refine Or.inl ⟨reason, ?_⟩
        simp [ipcRecvAndYield, resolves, as_party_fault ran]
    | err error final =>
        have receives := @Displays.receives _ _ _ _ _ _ build party epCap final displays
          (.error error) ran
        refine Or.inr ⟨_, _, _, ?_, .received rest receives (by simp), orderly,
          displays.stored _⟩
        simp [Outcome.Returned, bridged, ipcRecvAndYield, resolves, as_party_err ran]
    | ok outcome final =>
        have receives := @Displays.receives _ _ _ _ _ _ build party epCap final displays
          (.ok outcome) ran
        have stored := displays.stored (putBack kernel.world party final)
        cases outcome with
        | received msg cap =>
            refine Or.inr ⟨_, _, _, ?_, .received rest receives (by simp), orderly, stored⟩
            simp [Outcome.Returned, bridged, ipcRecvAndYield, resolves, as_party_ok ran]
        | pending =>
            rw [displays.world] at named
            by_cases alone : view.roster.ready = []
            · have blockRan := deadlock_run build stored orderly ep alone
              refine Or.inr ⟨_, _, _, ?_, .deadlocked rest receives alone, orderly, stored⟩
              simp [Outcome.Returned, ipcRecvAndYield, resolves, as_party_ok ran, blockRan]
            · rcases blocked_run cpu build stored orderly ep alone
                (fun guard => .inRecv guard party epCap) with
                ⟨guard, indices, middle, after, blockRan, switchRan, final⟩
              refine Or.inr ⟨_, after, _, ?_, .blocked rest named receives alone,
                orderly.block ep, final⟩
              simp [Outcome.Returned, ipcRecvAndYield, resolves, as_party_ok ran, blockRan,
                switchRan]
  · refine Or.inr ⟨_, kernel, _, ?_,
      .received rest (displays.recv_refused (refused .recv)) (by simp), orderly, displays⟩
    simp [Outcome.Returned, bridged, ipcRecvAndYield, resolve_err unresolved]

theorem perform_answers (rest : view.frame = .outside) (call : Call Party) :
    Answers build view (.call call) (perform cpu build call kernel) := by
  cases call with
  | yieldNow => exact yield_now_answers cpu build displays orderly rest
  | ipcSendAndYield party epCap msg transfer =>
      exact send_answers cpu build displays orderly rest party epCap msg transfer
  | ipcRecvAndYield party epCap =>
      exact recv_answers cpu build displays orderly rest party epCap

theorem resume_answers (suspended : view.frame ≠ .outside) :
    Answers build view .resume (resume cpu build kernel) := by
  have current : kernel.sched.current = some view.roster.current := displays.sched.current
  have frame : kernel.frames view.roster.current.slot.index = view.frame := by
    rw [displays.frames]
    rfl
  cases found : view.frame with
  | outside => exact absurd found suspended
  | inYield guard =>
      rcases leave_run cpu displays guard with ⟨after, left, final⟩
      refine Or.inr ⟨_, after, _, ?_, .backFromYield found, orderly, final⟩
      simp only [slotOf] at left
      simp [Outcome.Returned, resume, current, frame, found, left]
  | inSend guard outcome =>
      rcases leave_run cpu displays guard with ⟨after, left, final⟩
      refine Or.inr ⟨_, after, _, ?_, .backFromSend found, orderly, final⟩
      simp only [slotOf] at left
      simp [Outcome.Returned, resume, current, frame, found, left]
  | inRecv guard party epCap =>
      rcases leave_run cpu displays guard with ⟨middle, left, back⟩
      simp only [slotOf] at left
      cases ran : ipcRecv build epCap (seenBy middle.world party) with
      | fault reason =>
          refine Or.inl ⟨reason, ?_⟩
          simp [resume, current, frame, found, left, as_party_fault ran]
      | err error final =>
          have receives := @Displays.receives _ _ _ _ _ _ build party epCap final back
            (.error error) ran
          refine Or.inr ⟨_, _, _, ?_, .collected found receives (by simp), orderly,
            back.stored _⟩
          simp [Outcome.Returned, bridged, resume, current, frame, found, left,
            as_party_err ran]
      | ok outcome final =>
          have receives := @Displays.receives _ _ _ _ _ _ build party epCap final back
            (.ok outcome) ran
          cases outcome with
          | received msg cap =>
              refine Or.inr ⟨_, _, _, ?_, .collected found receives (by simp), orderly,
                back.stored _⟩
              simp [Outcome.Returned, bridged, resume, current, frame, found, left,
                as_party_ok ran]
          | pending =>
              refine Or.inr ⟨_, _, _, ?_, .pendingAfterResume found receives, orderly,
                back.stored _⟩
              simp [Outcome.Returned, resume, current, frame, found, left, as_party_ok ran]

end Calls

/-! ## Kernel steps -/

section Kernel

variable {cpu : Cpu Context Machine} {build : Build} {kernel after : Kernel Party Context Machine}
  {label : KernelLabel Party Machine}

theorem Intact.displays (intact : Intact kernel) : Displays kernel (viewOf kernel) :=
  ⟨intact.shows, rfl, rfl⟩

theorem Intact.at_rest_iff (intact : Intact kernel) :
    AtRest kernel ↔ (viewOf kernel).frame = .outside := by
  constructor
  · intro atRest
    rcases atRest with ⟨current, isCurrent, outside⟩
    cases isCurrent.symm.trans intact.shows.current
    exact outside
  · intro outside
    exact ⟨_, intact.shows.current, outside⟩

variable [DecidableEq Party]

theorem Answers.view_step {event : Event Party Machine}
    {outcome : Outcome SchedFault SchedError (Kernel Party Context Machine) Reply}
    {result : Except SchedError Reply} (answers : Answers build (viewOf kernel) event outcome)
    (returned : outcome.Returned result after) :
    Intact after ∧ ViewStep build (viewOf kernel) event result (viewOf after) := by
  rcases answers with ⟨reason, stopped⟩ | ⟨other, final, next, answered, step, orderly, displays⟩
  · rw [stopped] at returned
    exact absurd returned (not_returned_fault _ _ _)
  · rcases answered.unique returned with ⟨sameResult, sameKernel⟩
    subst sameResult
    subst sameKernel
    rw [displays.view_of]
    exact ⟨displays.intact orderly, step⟩

theorem KernelStep.view_step (intact : Intact kernel)
    (step : KernelStep cpu build kernel label after) :
    Intact after ∧ ViewStep build (viewOf kernel) label.event label.result (viewOf after) := by
  rcases label with ⟨event, result⟩
  cases event with
  | call call =>
      have rest := intact.at_rest_iff.mp step.1
      exact (perform_answers cpu build intact.displays intact.orderly rest call).view_step step.2
  | resume =>
      have suspended : (viewOf kernel).frame ≠ .outside := by
        intro outside
        exact step.1 (intact.at_rest_iff.mpr outside)
      exact (resume_answers cpu build intact.displays intact.orderly suspended).view_step step.2
  | elsewhere world machine =>
      rcases step with ⟨atRest, same, moved⟩
      have displays : Displays after ((viewOf kernel).withWorld world) := by
        rw [moved]
        exact ⟨intact.shows, rfl, rfl⟩
      have same' : result = .ok .computed := same
      subst same'
      rw [displays.view_of]
      exact ⟨displays.intact intact.orderly, .elsewhere (intact.at_rest_iff.mp atRest)⟩

theorem Intact.faults (intact : Intact kernel) :
    (∀ call reason, AtRest kernel → perform cpu build call kernel = .fault reason →
      ∃ inner, reason = .inner inner) ∧
    (∀ reason, ¬ AtRest kernel → resume cpu build kernel = .fault reason →
      ∃ inner, reason = .inner inner) := by
  constructor
  · intro call reason atRest stopped
    have rest := intact.at_rest_iff.mp atRest
    rcases perform_answers cpu build intact.displays intact.orderly rest call with
      ⟨inner, faulted⟩ | ⟨result, final, next, returned, _⟩
    · cases stopped.symm.trans faulted
      exact ⟨inner, rfl⟩
    · rw [stopped] at returned
      exact absurd returned (not_returned_fault _ _ _)
  · intro reason notAtRest stopped
    have suspended : (viewOf kernel).frame ≠ .outside := by
      intro outside
      exact notAtRest (intact.at_rest_iff.mpr outside)
    rcases resume_answers cpu build intact.displays intact.orderly suspended with
      ⟨inner, faulted⟩ | ⟨result, final, next, returned, _⟩
    · cases stopped.symm.trans faulted
      exact ⟨inner, rfl⟩
    · rw [stopped] at returned
      exact absurd returned (not_returned_fault _ _ _)

end Kernel

/-! ## Boot -/

section Boot

variable (cpu : Cpu Context Machine) (world : World Party) (machine : Machine)

theorem start_run {registrations : List Registration} {first : TaskHandle}
    {rest : List TaskHandle} (handles : registrations.map Registration.handle = first :: rest)
    (registrable : Registrable (first :: rest)) :
    ∃ booted, start cpu registrations (powerOn cpu world machine) = .ok () booted ∧
      Displays booted ⟨startingRoster first rest, world, fun _ => .outside⟩ := by
  have room : ([] : List TaskHandle).length + registrations.length ≤ taskArenaCapacity := by
    have bounded := registrable.length_le
    rw [← handles, List.length_map] at bounded
    simpa using bounded
  have listed : Registrable (registrations.map Registration.handle) := by
    rw [handles]
    exact registrable
  rcases register_all_run cpu registrations (reads_new cpu) listed room with
    ⟨registered, registerRan, reads⟩
  rw [handles] at reads
  have starting : Reads registered none (first :: rest) (startingRoster first rest).states
      (startingRoster first rest).handles := by
    refine ⟨reads.current, by simpa using reads.ready, reads.states, ?_⟩
    rw [reads.handles]
    funext idx
    simp [startingRoster]
  rcases start_prelude_run registrable starting with ⟨ready, startRan, shows⟩
  have inRange := registrable.inRange first List.mem_cons_self
  have found : ∃ context, ready.contexts[slotOf first]? = some context :=
    ⟨_, Vector.getElem?_eq_getElem inRange⟩
  rcases found with ⟨context, found⟩
  have registers : (onSched (registerAll cpu registrations) : KernelM Party Context Machine _)
      (powerOn cpu world machine) = .ok () { powerOn cpu world machine with sched := registered } :=
    zoom_ok registerRan
  have preludes : (onSched startPrelude : KernelM Party Context Machine _)
      { powerOn cpu world machine with sched := registered } =
      .ok (slotOf first) { powerOn cpu world machine with sched := ready } := zoom_ok startRan
  refine ⟨{ powerOn cpu world machine with
    sched := ready
    machine := (cpu.contextSwitch cpu.emptyContext context (cpu.disableIrqs machine).2).2 },
    ?_, shows, rfl, rfl⟩
  simp [start, registers, preludes, found]
  rfl

end Boot

end Tyrne.Sched
