import Tyrne.Bridge

/-!
# What a step does to the processor

Registers, saved contexts and suspended frames change only in the switch window, when a
suspended bridge function goes on, and in the code of the task in control. The step
relation below says how, for every processor.
-/

namespace Tyrne.Sched

open Tyrne.Lib.Effect
open Tyrne.Cap
open Tyrne.Ipc
open Tyrne.System (World seenBy putBack)

set_option autoImplicit false

variable {Party Context Machine : Type}

/-! ## What leaves the contexts alone -/

section Contexts

/-- The computation leaves the saved contexts as they are. -/
abbrev KeepsContexts {Value : Type} (computation : SchedM Context Value) : Prop :=
  Keeps (@Scheduler.contexts Context) computation

theorem keeps_task_state_at (idx : Index) :
    KeepsContexts (taskStateAt idx : SchedM Context TaskState) := by
  apply keeps_read.bind
  intro sched
  split
  · exact keeps_pure _
  · exact keeps_abort _

theorem keeps_task_handle_at (idx : Index) :
    KeepsContexts (taskHandleAt idx : SchedM Context (Option TaskHandle)) := by
  apply keeps_read.bind
  intro sched
  split
  · exact keeps_pure _
  · exact keeps_abort _

theorem keeps_set_task_state (idx : Index) (state : TaskState) :
    KeepsContexts (setTaskState idx state : SchedM Context Unit) :=
  (keeps_task_state_at idx).bind fun _ => keeps_modify fun _ => rfl

theorem keeps_set_task_handle (idx : Index) (handle : TaskHandle) :
    KeepsContexts (setTaskHandle idx handle : SchedM Context Unit) :=
  (keeps_task_handle_at idx).bind fun _ => keeps_modify fun _ => rfl

theorem keeps_set_current (current : Option TaskHandle) :
    KeepsContexts (setCurrent current : SchedM Context Unit) :=
  keeps_modify fun _ => rfl

theorem keeps_on_ready {Error Value : Type}
    (computation : Eff SchedFault (SchedQueue taskArenaCapacity) Error Value) :
    Keeps (@Scheduler.contexts Context) (onReady computation) := by
  unfold onReady
  apply keeps_zoom
  intro sched ready
  rfl

theorem keeps_enqueue_or_panic (panic : SchedFault) (handle : TaskHandle) :
    KeepsContexts (enqueueOrPanic panic handle : SchedM Context Unit) :=
  (keeps_on_ready _).or_abort

theorem keeps_debug_assert (build : Build) (condition : Bool) (fault : SchedFault) :
    KeepsContexts (debugAssert build condition fault : SchedM Context Unit) := by
  unfold debugAssert
  split
  · exact keeps_abort _
  · exact keeps_pure _

theorem keeps_unblock_among (ep : EndpointHandle) (indices : List Index) :
    KeepsContexts (unblockAmong ep indices : SchedM Context Unit) := by
  induction indices with
  | nil => exact keeps_pure _
  | cons idx rest ih =>
      apply (keeps_task_state_at idx).bind
      intro state
      cases state with
      | idle => exact ih
      | ready => exact ih
      | blocked on =>
          by_cases same : on = ep
          · simp only [same, if_true]
            apply (keeps_task_handle_at idx).bind
            intro found
            cases found with
            | none => exact ih
            | some handle =>
                exact (keeps_set_task_state idx .ready).bind fun _ => keeps_enqueue_or_panic _ _
          · simp only [same, if_false]
            exact ih

theorem keeps_yield_prelude :
    KeepsContexts (yieldPrelude : SchedM Context (Option (Index × Index))) := by
  apply keeps_read.bind
  intro sched
  cases sched.current with
  | none => exact keeps_fail _
  | some current =>
      apply (keeps_set_task_state _ _).bind
      intro _
      apply (keeps_enqueue_or_panic _ _).bind
      intro _
      apply (keeps_on_ready _).bind
      intro taken
      cases taken with
      | none => exact keeps_pure _
      | some next =>
          by_cases same : next = current
          · simp only [same, if_true]
            exact keeps_pure _
          · simp only [same, if_false]
            apply (keeps_set_task_state _ _).bind
            intro _
            apply (keeps_set_current _).bind
            intro _
            exact keeps_pure _

theorem keeps_block_prelude (build : Build) (ep : EndpointHandle) :
    KeepsContexts (blockPrelude build ep : SchedM Context (Index × Index)) := by
  apply keeps_read.bind
  intro sched
  cases sched.current with
  | none => exact keeps_fail _
  | some current =>
      apply (keeps_task_state_at _).bind
      intro prior
      apply (keeps_debug_assert _ _ _).bind
      intro _
      apply (keeps_set_task_state _ _).bind
      intro _
      apply (keeps_set_current _).bind
      intro _
      apply (keeps_on_ready _).bind
      intro taken
      cases taken with
      | none =>
          apply (keeps_set_task_state _ _).bind
          intro _
          apply (keeps_set_current _).bind
          intro _
          exact keeps_fail _
      | some next =>
          apply (keeps_set_task_state _ _).bind
          intro _
          apply (keeps_set_current _).bind
          intro _
          exact keeps_pure _

theorem add_task_contexts {cpu : Cpu Context Machine} {handle : TaskHandle}
    {entry stackTop : UInt64} {sched after : Scheduler Context} {result : Except SchedError Unit}
    (returned : (addTask cpu handle entry stackTop sched).Returned result after) :
    ∃ context, sched.contexts[slotOf handle]? = some context ∧
      after.contexts = sched.contexts.setIfInBounds (slotOf handle)
        (cpu.initContext context entry stackTop) := by
  have behind : KeepsContexts (do
      mapErr (fun _ => SchedError.queueFull) (onReady (enqueue handle))
      setTaskState (slotOf handle) .ready
      setTaskHandle (slotOf handle) handle : SchedM Context Unit) := by
    apply (keeps_on_ready _).map_err.bind
    intro _
    apply (keeps_set_task_state _ _).bind
    intro _
    exact keeps_set_task_handle _ _
  cases found : sched.contexts[slotOf handle]? with
  | none =>
      simp only [slotOf] at found
      simp only [addTask, bind_run, read_run, and_then_ok, found, abort_run] at returned
      exact absurd returned (not_returned_fault _ _ _)
  | some context =>
      refine ⟨context, rfl, ?_⟩
      simp only [slotOf] at found
      unfold addTask at returned
      rw [bind_run, read_run, and_then_ok] at returned
      simp only [found] at returned
      exact behind.returned returned

theorem keeps_start_prelude : KeepsContexts (startPrelude : SchedM Context Index) := by
  apply (keeps_on_ready _).bind
  intro taken
  cases taken with
  | none => exact keeps_abort _
  | some next =>
      apply (keeps_set_task_state _ _).bind
      intro _
      apply (keeps_set_current _).bind
      intro _
      exact keeps_pure _

theorem start_prelude_chosen {sched after : Scheduler Context} {idx : Index}
    (ran : startPrelude sched = .ok idx after) :
    ∃ current, after.current = some current ∧ idx = slotOf current := by
  have returned : (startPrelude sched).Returned (.ok idx) after := ran
  rcases returned.bind with ⟨error, _, failed⟩ | ⟨taken, first, _, rest⟩
  · cases failed
  · cases taken with
    | none => exact absurd rest (not_returned_fault _ _ _)
    | some next =>
        rcases rest.bind with ⟨error, _, failed⟩ | ⟨_, marked, _, rest⟩
        · cases failed
        · cases rest
          exact ⟨next, rfl, rfl⟩

end Contexts

/-! ## Registration -/

section Registration

variable {cpu : Cpu Context Machine} {sched after : Scheduler Context}

def Prepared (cpu : Cpu Context Machine) (sched : Scheduler Context)
    (registration : Registration) : Prop :=
  ∃ blank, sched.contexts[slotOf registration.handle]? =
    some (cpu.initContext blank registration.entry registration.stackTop)

theorem add_task_prepared {registration : Registration} {result : Except SchedError Unit}
    (returned : (addTask cpu registration.handle registration.entry registration.stackTop
      sched).Returned result after) :
    Prepared cpu after registration := by
  rcases add_task_contexts returned with ⟨context, found, stored⟩
  have inRange : slotOf registration.handle < taskArenaCapacity := by
    rcases Vector.getElem?_eq_some_iff.mp found with ⟨bound, _⟩
    exact bound
  refine ⟨context, ?_⟩
  rw [stored, Vector.getElem?_setIfInBounds_self_of_lt inRange]

theorem add_task_others {handle : TaskHandle} {entry stackTop : UInt64} {idx : Index}
    {result : Except SchedError Unit} (apart : slotOf handle ≠ idx)
    (returned : (addTask cpu handle entry stackTop sched).Returned result after) :
    after.contexts[idx]? = sched.contexts[idx]? := by
  rcases add_task_contexts returned with ⟨context, _, stored⟩
  rw [stored, Vector.getElem?_setIfInBounds_ne apart]

theorem register_all_others {registrations : List Registration} {idx : Index}
    (apart : ∀ registration ∈ registrations, slotOf registration.handle ≠ idx)
    (ran : registerAll cpu registrations sched = .ok () after) :
    after.contexts[idx]? = sched.contexts[idx]? := by
  induction registrations generalizing sched with
  | nil =>
      cases ran
      rfl
  | cons first rest ih =>
      have returned : (registerAll cpu (first :: rest) sched).Returned (.ok ()) after := ran
      rcases returned.bind with ⟨error, _, failed⟩ | ⟨value, middle, added, later⟩
      · cases failed
      · have early := add_task_others (apart first List.mem_cons_self)
          (show Outcome.Returned _ (.ok value) _ from added)
        have late := ih (fun other member => apart other (List.mem_cons_of_mem _ member)) later
        exact late.trans early

theorem register_all_prepared {registrations : List Registration}
    (distinct : ((registrations.map Registration.handle).map slotOf).Nodup)
    (ran : registerAll cpu registrations sched = .ok () after) :
    ∀ registration ∈ registrations, Prepared cpu after registration := by
  induction registrations generalizing sched with
  | nil => exact fun _ member => absurd member List.not_mem_nil
  | cons first rest ih =>
      rcases List.nodup_cons.mp distinct with ⟨fresh, later⟩
      have returned : (registerAll cpu (first :: rest) sched).Returned (.ok ()) after := ran
      rcases returned.bind with ⟨error, _, failed⟩ | ⟨value, middle, added, restRan⟩
      · cases failed
      · intro registration member
        rcases List.mem_cons.mp member with rfl | listed
        · -- the registrations behind it leave its slot alone
          have prepared := add_task_prepared (show Outcome.Returned _ (.ok value) _ from added)
          have apart : ∀ other ∈ rest, slotOf other.handle ≠ slotOf registration.handle := by
            intro other listed same
            apply fresh
            rw [← same]
            exact List.mem_map_of_mem (List.mem_map_of_mem listed)
          rw [Prepared, register_all_others apart restRan]
          exact prepared
        · exact ih later restRan registration listed

end Registration

/-! ## The switch window -/

section Window

/-- What the processor works on: the saved contexts, the registers, and where each task
goes on. -/
def hardwareOf (kernel : Kernel Party Context Machine) :
    Vector Context taskArenaCapacity × Machine × (Index → Frame Party) :=
  (kernel.sched.contexts, kernel.machine, kernel.frames)

/-- The interrupt guard that a suspended bridge function holds. -/
def guardOf : Frame Party → Option IrqState
  | .outside => none
  | .inYield guard => some guard
  | .inSend guard _ => some guard
  | .inRecv guard _ _ => some guard

variable {kernel after : Kernel Party Context Machine}

theorem keeps_on_sched {Value : Type} {computation : SchedM Context Value}
    (kept : KeepsContexts computation) :
    Keeps hardwareOf (onSched computation : KernelM Party Context Machine Value) := by
  unfold onSched
  apply kept.zoom
  intro whole sched same
  simp only [hardwareOf, same]

theorem keeps_as_party [DecidableEq Party] {Part Value : Type}
    {part : Kernel Party Context Machine → Part}
    (apart : ∀ kernel world, part { kernel with world := world } = part kernel) (party : Party)
    (computation : IpcM Value) : Keeps part (asParty party computation) := by
  unfold asParty
  apply Keeps.map_err
  apply Keeps.map_fault
  apply keeps_zoom
  intro whole state
  exact apart whole _

/-- Control goes from one task to another: interrupts are masked, the task that leaves
is saved in its own slot, and the one that comes is loaded. -/
structure Switched (cpu : Cpu Context Machine) (kernel after : Kernel Party Context Machine)
    (leaving coming : TaskHandle) (old new : Context) (suspended : Frame Party) : Prop where
  leaves : kernel.sched.current = some leaving
  comes : after.sched.current = some coming
  apart : slotOf leaving ≠ slotOf coming
  replaced : kernel.sched.contexts[slotOf leaving]? = some old
  loaded : kernel.sched.contexts[slotOf coming]? = some new
  contexts : after.sched.contexts = kernel.sched.contexts.setIfInBounds (slotOf leaving)
    (cpu.contextSwitch old new (cpu.disableIrqs kernel.machine).2).1
  machine : after.machine = (cpu.contextSwitch old new (cpu.disableIrqs kernel.machine).2).2
  frames : after.frames = Function.update kernel.frames (slotOf leaving) suspended
  guarded : guardOf suspended = some (cpu.disableIrqs kernel.machine).1

def Switches (cpu : Cpu Context Machine) (kernel after : Kernel Party Context Machine) : Prop :=
  ∃ leaving coming old new suspended, Switched cpu kernel after leaving coming old new suspended

variable {cpu : Cpu Context Machine} {build : Build} {middle : Kernel Party Context Machine}

theorem Switches.preceded (same : hardwareOf middle = hardwareOf kernel)
    (current : middle.sched.current = kernel.sched.current)
    (switches : Switches cpu middle after) : Switches cpu kernel after := by
  rcases switches with ⟨leaving, coming, old, new, suspended, switched⟩
  have contexts : middle.sched.contexts = kernel.sched.contexts := congrArg Prod.fst same
  have machine : middle.machine = kernel.machine := congrArg (fun parts => parts.2.1) same
  have frames : middle.frames = kernel.frames := congrArg (fun parts => parts.2.2) same
  rcases switched with ⟨leaves, comes, apart, replaced, loaded, stored, moved, framed, guarded⟩
  rw [contexts] at replaced loaded stored
  rw [machine] at stored moved guarded
  rw [frames] at framed
  rw [current] at leaves
  exact ⟨leaving, coming, old, new, suspended,
    ⟨leaves, comes, apart, replaced, loaded, stored, moved, framed, guarded⟩⟩

section Entered

variable {leaving coming : TaskHandle} {suspend : IrqState → Frame Party}
  (same : hardwareOf middle = hardwareOf kernel) (leaves : kernel.sched.current = some leaving)
  (comes : middle.sched.current = some coming) (apart : slotOf leaving ≠ slotOf coming)
  (guards : ∀ guard, guardOf (suspend guard) = some guard)
include same leaves comes apart guards

theorem switch_context_window {result : Except SchedError Unit}
    (returned : (switchContext cpu build (slotOf leaving) (slotOf coming) suspend middle).Returned
      result after) :
    result = .ok () ∧ Switches cpu kernel after := by
  have contexts : middle.sched.contexts = kernel.sched.contexts := congrArg Prod.fst same
  have machine : middle.machine = kernel.machine := congrArg (fun parts => parts.2.1) same
  have frames : middle.frames = kernel.frames := congrArg (fun parts => parts.2.2) same
  have distinct : decide (slotOf leaving ≠ slotOf coming) = true := decide_eq_true apart
  unfold switchContext at returned
  rw [distinct, bind_run, debug_assert_true, and_then_ok, bind_run, read_run, and_then_ok]
    at returned
  cases replaced : middle.sched.contexts[slotOf leaving]? with
  | none =>
      simp only [replaced] at returned
      exact absurd returned (not_returned_fault _ _ _)
  | some old =>
      cases loaded : middle.sched.contexts[slotOf coming]? with
      | none =>
          simp only [replaced, loaded] at returned
          exact absurd returned (not_returned_fault _ _ _)
      | some new =>
          simp only [replaced, loaded] at returned
          rcases returned_of_ok returned with ⟨isDone, final⟩
          rw [machine, contexts, frames] at final
          rw [contexts] at replaced loaded
          refine ⟨isDone, leaving, coming, old, new, suspend (cpu.disableIrqs kernel.machine).1, ?_⟩
          subst final
          exact ⟨leaves, comes, apart, replaced, loaded, rfl, rfl, rfl, guards _⟩

theorem switch_then {Value : Type} {value : Value} {result : Except SchedError Value}
    (returned : ((do
      switchContext cpu build (slotOf leaving) (slotOf coming) suspend
      pure value : KernelM Party Context Machine Value) middle).Returned result after) :
    result = .ok value ∧ Switches cpu kernel after := by
  rcases returned.bind with ⟨error, failed, _⟩ | ⟨switched, final, ran, rest⟩
  · have window := switch_context_window same leaves comes apart guards
      (show Outcome.Returned _ (.error error) _ from failed)
    cases window.1
  · have window := switch_context_window same leaves comes apart guards
      (show Outcome.Returned _ (.ok switched) _ from ran)
    rcases returned_of_ok rest with ⟨isDone, reached⟩
    rw [reached]
    exact ⟨isDone, window.2⟩

end Entered

variable {roster : Roster} (shows : Shows kernel.sched roster) (orderly : Orderly roster)
include shows orderly

theorem yield_to_window {suspend : IrqState → Frame Party} {result : Except SchedError Bool}
    (guards : ∀ guard, guardOf (suspend guard) = some guard)
    (returned : (yieldTo cpu build suspend kernel).Returned result after) :
    result = .ok false ∧ hardwareOf after = hardwareOf kernel ∨
      result = .ok true ∧ Switches cpu kernel after := by
  rcases yield_prelude_run shows orderly with ⟨sched, ran, turned⟩
  have preluded : (onSched yieldPrelude : KernelM Party Context Machine _) kernel =
      .ok roster.switchOf { kernel with sched := sched } := zoom_ok ran
  have same : hardwareOf { kernel with sched := sched } = hardwareOf kernel :=
    (keeps_on_sched keeps_yield_prelude).returned
      (show Outcome.Returned _ (.ok roster.switchOf) _ from preluded)
  unfold yieldTo at returned
  rw [bind_run, preluded, and_then_ok] at returned
  cases line : roster.ready with
  | nil =>
      simp only [Roster.switchOf, line] at returned
      rcases returned_of_ok returned with ⟨isDone, final⟩
      rw [final]
      exact Or.inl ⟨isDone, same⟩
  | cons next rest =>
      simp only [Roster.switchOf, line] at returned
      have comes : sched.current = some next := by
        rw [turned.current, Roster.rotate, line]
      have apart := orderly.next_apart line
      exact Or.inr (switch_then same shows.current comes apart guards returned)

/-- A call either leaves the processor alone or ends in the switch window. -/
def CallWindow (cpu : Cpu Context Machine) (kernel : Kernel Party Context Machine)
    (result : Except SchedError Reply) (after : Kernel Party Context Machine) : Prop :=
  result ≠ .ok .switched ∧ hardwareOf after = hardwareOf kernel ∨
    result = .ok .switched ∧ Switches cpu kernel after

theorem turn_window {suspend : IrqState → Frame Party} {alone : Reply}
    {result : Except SchedError Reply} (guards : ∀ guard, guardOf (suspend guard) = some guard)
    (returns : alone ≠ .switched)
    (returned : ((do
      let switched ← yieldTo cpu build suspend
      if switched then pure .switched else pure alone :
        KernelM Party Context Machine Reply) kernel).Returned result after) :
    CallWindow cpu kernel result after := by
  rcases returned.bind with ⟨error, failed, rfl⟩ | ⟨switched, middle, ran, rest⟩
  · rcases yield_to_window shows orderly guards
      (show Outcome.Returned _ (.error error) _ from failed) with ⟨same, _⟩ | ⟨same, _⟩
    · cases same
    · cases same
  · rcases yield_to_window shows orderly guards
      (show Outcome.Returned _ (.ok switched) _ from ran) with ⟨same, kept⟩ | ⟨same, switches⟩
    · cases same
      rcases returned_of_ok rest with ⟨isAlone, reached⟩
      rw [isAlone, reached]
      refine Or.inl ⟨?_, kept⟩
      intro equal
      exact returns (Except.ok.inj equal)
    · cases same
      rcases returned_of_ok rest with ⟨isSwitched, reached⟩
      rw [reached]
      exact Or.inr ⟨isSwitched, switches⟩

theorem delivered_window {ep : EndpointHandle} {result : Except SchedError Reply}
    (returned : ((do
      onSched (unblockReceiverOn ep)
      let switched ← yieldTo cpu build fun guard => .inSend guard .delivered
      if switched then pure .switched else pure (.sent .delivered) :
        KernelM Party Context Machine Reply) kernel).Returned result after) :
    CallWindow cpu kernel result after := by
  rcases unblock_receiver_run shows orderly ep with ⟨sched, ran, woken⟩
  have wakes : (onSched (unblockReceiverOn ep) : KernelM Party Context Machine _) kernel =
      .ok () { kernel with sched := sched } := zoom_ok ran
  have same : hardwareOf { kernel with sched := sched } = hardwareOf kernel :=
    (keeps_on_sched (keeps_unblock_among ep _)).returned
      (show Outcome.Returned _ (.ok ()) _ from wakes)
  have current : sched.current = kernel.sched.current := by
    rw [woken.current, shows.current, Roster.current_wake]
  rw [bind_run, wakes, and_then_ok] at returned
  have turned := @turn_window _ _ _ { kernel with sched := sched } after cpu build _ woken
    (orderly.wake ep) _ _ result (fun _ => rfl) (by simp) returned
  rcases turned with ⟨quiet, kept⟩ | ⟨isSwitched, switches⟩
  · exact Or.inl ⟨quiet, kept.trans same⟩
  · exact Or.inr ⟨isSwitched, switches.preceded same current⟩

theorem block_window {ep : EndpointHandle} {suspend : IrqState → Frame Party}
    {result : Except SchedError Reply} (guards : ∀ guard, guardOf (suspend guard) = some guard)
    (returned : ((do
      let (currentIdx, nextIdx) ← onSched (blockPrelude build ep)
      switchContext cpu build currentIdx nextIdx suspend
      pure .switched : KernelM Party Context Machine Reply) kernel).Returned result after) :
    CallWindow cpu kernel result after := by
  have keeps := @keeps_on_sched Party Context Machine _ _ (keeps_block_prelude build ep)
  rcases returned.bind with ⟨error, failed, rfl⟩ | ⟨indices, middle, preluded, rest⟩
  · refine Or.inl ⟨by simp, keeps.failed failed⟩
  · have same := keeps.ran preluded
    cases line : roster.ready with
    | nil =>
        have stays : (onSched (blockPrelude build ep) : KernelM Party Context Machine _) kernel =
            .err .deadlock kernel := zoom_err (block_prelude_alone shows orderly build ep line)
        cases stays.symm.trans preluded
    | cons next others =>
        rcases block_prelude_run shows orderly build ep line with ⟨sched, ran, blocked⟩
        have chosen : (onSched (blockPrelude build ep) : KernelM Party Context Machine _) kernel =
            .ok (slotOf roster.current, slotOf next) { kernel with sched := sched } := zoom_ok ran
        cases chosen.symm.trans preluded
        have comes : sched.current = some next := by
          rw [blocked.current, Roster.block, line]
        have apart := orderly.next_apart line
        exact Or.inr (switch_then same shows.current comes apart guards rest)

variable [DecidableEq Party] {party : Party} {epCap : CapHandle}

omit orderly in
theorem as_party_window {Value : Type} {computation : IpcM Value}
    {next : Value → KernelM Party Context Machine Reply} {result : Except SchedError Reply}
    (returned : ((asParty party computation >>= next) kernel).Returned result after)
    (continues : ∀ value middle, Shows middle.sched roster →
      (next value middle).Returned result after → CallWindow cpu middle result after) :
    CallWindow cpu kernel result after := by
  have hardware : Keeps (@hardwareOf Party Context Machine) (asParty party computation) :=
    keeps_as_party (fun _ _ => rfl) party computation
  have scheduler : Keeps (@Kernel.sched Party Context Machine) (asParty party computation) :=
    keeps_as_party (fun _ _ => rfl) party computation
  rcases returned.bind with ⟨error, failed, rfl⟩ | ⟨value, middle, ran, rest⟩
  · exact Or.inl ⟨by simp, hardware.failed failed⟩
  · have same := hardware.ran ran
    have untouched := scheduler.ran ran
    rcases continues value middle (untouched.symm ▸ shows) rest with
      ⟨quiet, kept⟩ | ⟨isSwitched, switches⟩
    · exact Or.inl ⟨quiet, kept.trans same⟩
    · exact Or.inr ⟨isSwitched, switches.preceded same (congrArg Scheduler.current untouched)⟩

theorem send_window {msg : Message} {transfer : Option CapHandle}
    {result : Except SchedError Reply}
    (returned : (ipcSendAndYield cpu build party epCap msg transfer kernel).Returned result after) :
    CallWindow cpu kernel result after := by
  apply as_party_window shows returned
  intro ep resolved resolvedShows resolvedReturned
  apply as_party_window resolvedShows resolvedReturned
  intro outcome sent sentShows rest
  cases outcome with
  | delivered => exact delivered_window sentShows orderly rest
  | enqueued =>
      rcases returned_of_ok rest with ⟨isSent, reached⟩
      rw [isSent, reached]
      exact Or.inl ⟨by simp, rfl⟩

theorem recv_window {result : Except SchedError Reply}
    (returned : (ipcRecvAndYield cpu build party epCap kernel).Returned result after) :
    CallWindow cpu kernel result after := by
  apply as_party_window shows returned
  intro ep resolved resolvedShows resolvedReturned
  apply as_party_window resolvedShows resolvedReturned
  intro outcome taken takenShows rest
  cases outcome with
  | pending => exact block_window takenShows orderly (fun _ => rfl) rest
  | received msg cap =>
      rcases returned_of_ok rest with ⟨isReceived, reached⟩
      rw [isReceived, reached]
      exact Or.inl ⟨by simp, rfl⟩

theorem perform_window {call : Call Party} {result : Except SchedError Reply}
    (returned : (perform cpu build call kernel).Returned result after) :
    CallWindow cpu kernel result after := by
  cases call with
  | yieldNow => exact turn_window shows orderly (fun _ => rfl) (by simp) returned
  | ipcSendAndYield party epCap msg transfer => exact send_window shows orderly returned
  | ipcRecvAndYield party epCap => exact recv_window shows orderly returned

end Window

/-! ## Behind the window -/

section Behind

variable {cpu : Cpu Context Machine} {build : Build} {kernel after : Kernel Party Context Machine}

/-- The task in control came back from a bridge function: its guard was dropped, and
nothing else on the processor changed. -/
structure Resumed (cpu : Cpu Context Machine) (kernel after : Kernel Party Context Machine)
    (current : TaskHandle) (guard : IrqState) : Prop where
  control : kernel.sched.current = some current
  suspended : guardOf (kernel.frames (slotOf current)) = some guard
  scheduler : after.sched = kernel.sched
  machine : after.machine = cpu.restoreIrqState guard kernel.machine
  frames : after.frames = Function.update kernel.frames (slotOf current) .outside

def besidesWorld (kernel : Kernel Party Context Machine) :
    Scheduler Context × Machine × (Index → Frame Party) :=
  (kernel.sched, kernel.machine, kernel.frames)

theorem leave_then {current : TaskHandle} {guard : IrqState} {Value : Type}
    {next : KernelM Party Context Machine Value} {result : Except SchedError Value}
    (control : kernel.sched.current = some current)
    (suspended : guardOf (kernel.frames (slotOf current)) = some guard)
    (keeps : Keeps besidesWorld next)
    (returned : ((do
      leave cpu (slotOf current) guard
      next : KernelM Party Context Machine Value) kernel).Returned result after) :
    Resumed cpu kernel after current guard := by
  rcases returned.bind with ⟨error, failed, _⟩ | ⟨value, middle, ran, rest⟩
  · cases failed
  · have same := keeps.returned rest
    cases ran
    exact ⟨control, suspended, congrArg Prod.fst same, congrArg (fun parts => parts.2.1) same,
      congrArg (fun parts => parts.2.2) same⟩

variable [DecidableEq Party]

theorem resume_window {current : TaskHandle} {result : Except SchedError Reply}
    (control : kernel.sched.current = some current)
    (suspended : kernel.frames (slotOf current) ≠ .outside)
    (returned : (resume cpu build kernel).Returned result after) :
    ∃ guard, Resumed cpu kernel after current guard := by
  unfold resume at returned
  rw [bind_run, read_run, and_then_ok] at returned
  simp only [control] at returned
  cases found : kernel.frames (slotOf current) with
  | outside => exact absurd found suspended
  | inYield guard =>
      simp only [slotOf] at found
      simp only [found] at returned
      refine ⟨guard, leave_then control ?_ (keeps_pure _) returned⟩
      rw [slotOf, found, guardOf]
  | inSend guard outcome =>
      simp only [slotOf] at found
      simp only [found] at returned
      refine ⟨guard, leave_then control ?_ (keeps_pure _) returned⟩
      rw [slotOf, found, guardOf]
  | inRecv guard party epCap =>
      simp only [slotOf] at found
      simp only [found] at returned
      refine ⟨guard, leave_then control ?_ ?_ returned⟩
      · rw [slotOf, found, guardOf]
      · apply (keeps_as_party (fun _ _ => rfl) party _).bind
        intro outcome
        cases outcome with
        | received msg cap => exact keeps_pure _
        | pending => exact keeps_fail _

end Behind

/-! ## Steps of the kernel -/

section Steps

variable [DecidableEq Party] {cpu : Cpu Context Machine} {build : Build}
  {kernel after : Kernel Party Context Machine}

/-- What one step does to the processor. -/
inductive Window (cpu : Cpu Context Machine) (kernel after : Kernel Party Context Machine) :
    Event Party Machine → Except SchedError Reply → Prop where
  | kept {call : Call Party} {result : Except SchedError Reply} (quiet : result ≠ .ok .switched)
      (same : hardwareOf after = hardwareOf kernel)
      (control : after.sched.current = kernel.sched.current) :
      Window cpu kernel after (.call call) result
  | switched {call : Call Party} (switches : Switches cpu kernel after) :
      Window cpu kernel after (.call call) (.ok .switched)
  | resumed {result : Except SchedError Reply} {current : TaskHandle} {guard : IrqState}
      (resumed : Resumed cpu kernel after current guard) : Window cpu kernel after .resume result
  | computed {world : World Party} {machine : Machine} (rest : AtRest kernel)
      (moved : after = { kernel with world := world, machine := machine }) :
      Window cpu kernel after (.elsewhere world machine) (.ok .computed)

theorem ViewStep.stays {view next : View Party} {call : Call Party}
    {result : Except SchedError Reply}
    (step : ViewStep build view (.call call : Event Party Machine) result next)
    (quiet : result ≠ .ok .switched) : next.roster.current = view.roster.current := by
  have turned : ∀ (view : View Party) (alone : Reply) (suspend : Frame Party),
      (.ok (view.turned alone) : Except SchedError Reply) ≠ .ok .switched →
      (view.turn suspend).roster.current = view.roster.current := by
    intro view alone suspend returns
    cases line : view.roster.ready with
    | nil => simp only [View.turn, line]
    | cons next rest =>
        simp only [View.turned, line] at returns
        exact absurd rfl returns
  cases step with
  | yielded _ => exact turned view _ _ quiet
  | sent _ _ _ => rfl
  | delivered _ _ _ wakes =>
      rw [turned _ _ _ quiet, wakes]
      exact Roster.current_wake _ _
  | received _ _ _ => rfl
  | deadlocked _ _ _ => rfl
  | blocked _ _ _ _ => exact absurd rfl quiet

theorem KernelStep.window {label : KernelLabel Party Machine} (intact : Intact kernel)
    (step : KernelStep cpu build kernel label after) :
    Window cpu kernel after label.event label.result := by
  have viewed := step.view_step intact
  rcases label with ⟨event, result⟩
  cases event with
  | call call =>
      rcases perform_window intact.shows intact.orderly step.2 with
        ⟨quiet, same⟩ | ⟨isSwitched, switches⟩
      · refine .kept quiet same ?_
        rw [viewed.1.shows.current, intact.shows.current]
        exact congrArg some (viewed.2.stays quiet)
      · simp only at isSwitched
        rw [isSwitched]
        exact .switched switches
  | resume =>
      have suspended : kernel.frames (slotOf (rosterOf kernel.sched).current) ≠ .outside :=
        fun outside => step.1 (intact.at_rest_iff.mpr outside)
      rcases resume_window intact.shows.current suspended step.2 with ⟨guard, resumed⟩
      exact .resumed resumed
  | elsewhere world machine =>
      rcases step with ⟨rest, isComputed, moved⟩
      simp only at isComputed
      rw [isComputed]
      exact .computed rest moved

end Steps

/-! ## Boot -/

section Boot

variable {cpu : Cpu Context Machine} {world : World Party} {machine : Machine}
  {registrations : List Registration} {booted : Kernel Party Context Machine}

/-- After boot every task but the first waits in the context it was registered with, and
the first has been loaded. -/
theorem start_window
    (distinct : ((registrations.map Registration.handle).map slotOf).Nodup)
    (ran : start cpu registrations (powerOn cpu world machine) = .ok () booted) :
    (∀ registration ∈ registrations, Prepared cpu booted.sched registration) ∧
      ∃ current next, booted.sched.current = some current ∧
        booted.sched.contexts[slotOf current]? = some next ∧
        booted.machine =
          (cpu.contextSwitch cpu.emptyContext next (cpu.disableIrqs machine).2).2 := by
  have returned : (start cpu registrations (powerOn cpu world machine)).Returned (.ok ()) booted :=
    ran
  rcases returned.bind with ⟨error, _, failed⟩ | ⟨value, registered, registerRan, rest⟩
  · cases failed
  · rcases zoom_returned (show Outcome.Returned _ (.ok value) _ from registerRan) with
      ⟨listed, listRan, same⟩
    subst same
    have prepared := register_all_prepared distinct listRan
    rcases rest.bind with ⟨error, _, failed⟩ | ⟨nextIdx, chosen, preludeRan, rest⟩
    · cases failed
    · rcases zoom_returned (show Outcome.Returned _ (.ok nextIdx) _ from preludeRan) with
        ⟨ready, readyRan, same⟩
      subst same
      have contexts : ready.contexts = listed.contexts := keeps_start_prelude.returned readyRan
      rcases start_prelude_chosen readyRan with ⟨current, control, rfl⟩
      rw [bind_run, read_run, and_then_ok] at rest
      cases found : ready.contexts[slotOf current]? with
      | none =>
          simp only [found] at rest
          exact absurd rest (not_returned_fault _ _ _)
      | some next =>
          simp only [found] at rest
          rcases returned_of_ok rest with ⟨_, reached⟩
          subst reached
          refine ⟨?_, current, next, control, found, rfl⟩
          intro registration member
          rw [Prepared, contexts]
          exact prepared registration member

end Boot

end Tyrne.Sched
