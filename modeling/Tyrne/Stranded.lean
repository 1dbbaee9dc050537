import Tyrne.WakeUp

/-!
# What ends a block

Nothing takes a task out of `Blocked` but a send that is delivered on the endpoint it is
blocked on, and such a send needs the endpoint to be alive. `destroy_endpoint` knows nothing
of the scheduler: it strands whoever is blocked there.
-/

namespace Tyrne.Sched

open Tyrne.Lib.Effect
open Tyrne.Lib.Runs
open Tyrne.Cap
open Tyrne.Ipc
open Tyrne.ObjArena (Live)
open Tyrne.System

set_option autoImplicit false

variable {Party Context Machine : Type} [DecidableEq Party]

/-- A send by the task in control that was delivered on a live endpoint. -/
structure DeliversOn (build : Build) (ep : EndpointHandle)
    (taken : Transition (Kernel Party Context Machine) (KernelLabel Party Machine)) : Prop where
  sends : ∃ party epCap msg transfer world,
    taken.label.event = .call (.ipcSendAndYield party epCap msg transfer) ∧
      Sends build taken.before.world party epCap msg transfer (.ok .delivered) world ∧
      Names (taken.before.world.tables party) epCap .send ep
  alive : Live taken.before.world.arena ep.slot

/-! ## Calls leave the arena -/

theorem keeps_arena_table {Value : Type} (computation : CallerM Value) :
    Keeps IpcState.arena (onTable computation) := by
  unfold onTable
  apply keeps_zoom
  intro whole part
  rfl

theorem keeps_arena_queues {Value : Type} (computation : QueuesM Value) :
    Keeps IpcState.arena (onQueues computation) := by
  unfold onQueues
  apply keeps_zoom
  intro whole part
  rfl

theorem keeps_arena_require (handle : EndpointHandle) :
    Keeps IpcState.arena (requireEndpoint handle) := by
  apply keeps_read.bind
  intro state
  cases ObjArena.get state.arena handle.slot with
  | none => exact keeps_fail _
  | some endpoint => exact keeps_pure _

theorem keeps_arena_send (build : Build) (epCap : CapHandle) (msg : Message)
    (transfer : Option CapHandle) : Keeps IpcState.arena (ipcSend build epCap msg transfer) := by
  apply (keeps_arena_table _).bind
  intro handle
  apply (keeps_arena_table _).bind
  intro _
  apply (keeps_arena_require handle).bind
  intro _
  apply (keeps_arena_queues _).bind
  intro peeked
  by_cases full : peeked.stored.isSome = true
  · rw [if_pos full]
    exact keeps_fail _
  · rw [if_neg full]
    apply (keeps_arena_table _).bind
    intro owned
    apply (keeps_arena_queues _).bind
    intro place
    apply (keeps_arena_queues _).bind
    intro old
    cases old with
    | idle => exact (keeps_arena_queues _).bind fun _ => keeps_pure _
    | recvWaiting => exact (keeps_arena_queues _).bind fun _ => keeps_pure _
    | sendPending msg cap => exact keeps_abort _
    | recvComplete msg cap => exact keeps_abort _

theorem keeps_arena_recv (build : Build) (epCap : CapHandle) :
    Keeps IpcState.arena (ipcRecv build epCap) := by
  apply (keeps_arena_table _).bind
  intro handle
  apply (keeps_arena_require handle).bind
  intro _
  apply (keeps_arena_queues _).bind
  intro peeked
  apply keeps_read.bind
  intro caller
  by_cases full : (peeked.parked.isSome && CapTable.isFull caller.table) = true
  · rw [if_pos full]
    exact keeps_fail _
  · rw [if_neg full]
    apply (keeps_arena_queues _).bind
    intro place
    apply (keeps_arena_queues _).bind
    intro old
    cases old with
    | sendPending msg cap => exact (keeps_arena_table _).bind fun _ => keeps_pure _
    | recvComplete msg cap => exact (keeps_arena_table _).bind fun _ => keeps_pure _
    | idle => exact (keeps_arena_queues _).bind fun _ => keeps_pure _
    | recvWaiting => exact (keeps_arena_queues _).bind fun _ => keeps_fail _

/-! ## One step -/

section Steps

variable {build : Build} {world after : World Party} {party : Party} {epCap : CapHandle}
  {msg : Message} {transfer : Option CapHandle} {outcome : SendOutcome}

theorem Sends.names_live (sends : Sends build world party epCap msg transfer (.ok outcome) after) :
    ∃ home, Names (world.tables party) epCap .send home ∧ Live world.arena home.slot := by
  rcases sends with ⟨final, ran, _⟩
  rcases @validate_cases (world.tables party) epCap .send with ⟨home, names, validated⟩ | ⟨_, refused⟩
  · refine ⟨home, names, ?_⟩
    rcases @check_transfer_cases (world.tables party) transfer with checked | unchecked
    · by_contra dead
      have failed := @ipc_send_dead (seenBy world party) epCap home build msg transfer validated
        checked dead
      rw [failed] at ran
      cases ran
    · have failed := @ipc_send_unchecked (seenBy world party) epCap home build _ msg transfer
        validated unchecked
      rw [failed] at ran
      cases ran
  · have failed := @ipc_send_unnamed (seenBy world party) epCap build _ msg transfer refused
    rw [failed] at ran
    cases ran

theorem Sends.arena {result : Except IpcError SendOutcome}
    (sends : Sends build world party epCap msg transfer result after) : after.arena = world.arena := by
  rcases sends with ⟨final, ran, rfl⟩
  exact (keeps_arena_send build epCap msg transfer).returned ran

theorem Receives.arena {result : Except IpcError RecvOutcome}
    (receives : Receives build world party epCap result after) : after.arena = world.arena := by
  rcases receives with ⟨final, ran, rfl⟩
  exact (keeps_arena_recv build epCap).returned ran

variable {view next : View Party} {event : Event Party Machine} {result : Except SchedError Reply}
  {idx : Index} {ep : EndpointHandle}

theorem Orderly.wake_other {roster : Roster} (orderly : Orderly roster) {on : EndpointHandle}
    (blocked : roster.states idx = .blocked ep) (other : ep ≠ on) :
    (roster.wake on).states idx = .blocked ep := by
  cases found : roster.waiterOn on with
  | none =>
      rw [wake_none found]
      exact blocked
  | some waiter =>
      rcases orderly.wake_some found with ⟨handle, known, woken⟩
      have apart : idx ≠ waiter := by
        intro same
        subst same
        cases blocked.symm.trans (waiter_blocked found)
        exact other rfl
      rw [woken, Roster.rejoin]
      exact (Function.update_of_ne apart _ _).trans blocked

theorem ViewStep.unblocks (step : ViewStep build view event result next)
    (orderly : Orderly view.roster)
    (blocked : view.roster.states idx = .blocked ep) :
    next.roster.states idx = .blocked ep ∨
      ∃ party epCap msg transfer world,
        event = .call (.ipcSendAndYield party epCap msg transfer) ∧
          Sends build view.world party epCap msg transfer (.ok .delivered) world ∧
          Names (view.world.tables party) epCap .send ep ∧ Live view.world.arena ep.slot := by
  cases step with
  | yielded rest =>
      left
      rw [View.states_turn]
      exact blocked
  | sent rest sends quiet => exact .inl blocked
  | @delivered party epCap msg transfer on world woken guard rest resolves sends wakes =>
      rcases sends.names_live with ⟨home, names, live⟩
      cases (endpoint_at_named names).symm.trans resolves
      by_cases same : ep = on
      · subst same
        exact .inr ⟨party, epCap, msg, transfer, world, rfl, sends, names, live⟩
      · left
        rw [View.states_turn, wakes]
        exact orderly.wake_other blocked same
  | received rest receives done => exact .inl blocked
  | deadlocked rest receives alone => exact .inl blocked
  | @blocked party epCap on world guard rest resolves receives others =>
      left
      have inControl := (orderly.enrolled _ List.mem_cons_self).2
      have apart : idx ≠ slotOf view.roster.current := by
        intro same
        rw [same] at blocked
        cases blocked.symm.trans inControl
      rw [Roster.states_block _ _ others, Function.update_of_ne apart]
      exact blocked
  | backFromYield suspended => exact .inl blocked
  | backFromSend suspended => exact .inl blocked
  | collected suspended receives done => exact .inl blocked
  | pendingAfterResume suspended receives => exact .inl blocked
  | elsewhere rest => exact .inl blocked

theorem ViewStep.arena (step : ViewStep build view event result next)
    (calls : ∀ world machine, event ≠ .elsewhere world machine) :
    next.world.arena = view.world.arena := by
  cases step with
  | yielded rest => rw [View.world_turn]
  | sent rest sends quiet => exact sends.arena
  | delivered rest resolves sends wakes =>
      rw [View.world_turn, wakes]
      exact sends.arena
  | received rest receives done => exact receives.arena
  | deadlocked rest receives alone => exact receives.arena
  | blocked rest resolves receives others => exact receives.arena
  | backFromYield suspended => rfl
  | backFromSend suspended => rfl
  | collected suspended receives done => exact receives.arena
  | pendingAfterResume suspended receives => exact receives.arena
  | elsewhere rest => exact absurd rfl (calls _ _)

end Steps

section Runs

variable {cpu : Cpu Context Machine} {build : Build} {kernel after : Kernel Party Context Machine}
  {trace : KernelTrace Party Context Machine} {idx : Index} {ep : EndpointHandle}

theorem blocked_until_delivered (intact : Intact kernel)
    (run : Run (KernelStep cpu build) kernel trace after)
    (blocked : statesOf kernel.sched idx = .blocked ep) :
    statesOf after.sched idx = .blocked ep ∨ ∃ taken ∈ trace, DeliversOn build ep taken := by
  induction run with
  | nil => exact .inl blocked
  | @snoc trace middle after label earlier step ih =>
      rcases ih with still | ⟨taken, member, delivers⟩
      · have reached := (intact_of_run intact earlier).1
        rcases step.view_step reached with ⟨_, moved⟩
        rcases moved.unblocks reached.orderly still with
          stays | ⟨party, epCap, msg, transfer, world, isSend, sends, names, live⟩
        · exact .inl stays
        · exact .inr ⟨_, List.mem_append_right _ (List.mem_singleton_self _),
            ⟨party, epCap, msg, transfer, world, isSend, sends, names⟩, live⟩
      · exact .inr ⟨taken, List.mem_append_left _ member, delivers⟩

/-- A task, in its own code, brings a handle to life that was dead. A freed handle does not
come back before its slot has been freed 2^32 times. -/
structure Revives (ep : EndpointHandle)
    (taken : Transition (Kernel Party Context Machine) (KernelLabel Party Machine)) : Prop where
  own : ∃ world machine, taken.label.event = .elsewhere world machine
  dead : ¬ Live taken.before.world.arena ep.slot
  alive : Live taken.after.world.arena ep.slot

theorem dead_of_run (intact : Intact kernel) (run : Run (KernelStep cpu build) kernel trace after)
    (dead : ¬ Live kernel.world.arena ep.slot) (final : ∀ taken ∈ trace, ¬ Revives ep taken) :
    (∀ taken ∈ trace, ¬ Live taken.before.world.arena ep.slot) ∧ ¬ Live after.world.arena ep.slot := by
  induction run with
  | nil =>
      constructor
      · intro taken member
        cases member
      · exact dead
  | @snoc trace middle after label earlier step ih =>
      rcases ih fun taken member => final taken (List.mem_append_left _ member) with ⟨before, here⟩
      constructor
      · intro taken member
        rcases List.mem_append.mp member with early | last
        · exact before taken early
        · rw [List.mem_singleton.mp last]
          exact here
      · intro alive
        by_cases own : ∃ world machine, label.event = .elsewhere world machine
        · exact final _ (List.mem_append_right _ (List.mem_singleton_self _)) ⟨own, here, alive⟩
        · rcases step.view_step (intact_of_run intact earlier).1 with ⟨next, moved⟩
          have same := moved.arena fun world machine is => own ⟨world, machine, is⟩
          exact here (show Live middle.world.arena ep.slot from same ▸ alive)

end Runs

section Boot

variable (cpu : Cpu Context Machine) (build : Build) (world : World Party) (machine : Machine)

/-- In every run from boot, whatever the tasks do in their own code: a blocked task stays
blocked until a send is delivered on its endpoint while that is alive. Once the endpoint is
destroyed nothing brings the task back, and it is neither in control nor in line. -/
theorem stranded_receivers {registrations : List Registration} (anyone : registrations ≠ [])
    (registrable : Registrable (registrations.map Registration.handle)) :
    ∃ booted, start cpu registrations (powerOn cpu world machine) = .ok () booted ∧
      ∀ early middle late after, Run (KernelStep cpu build) booted early middle →
        Run (KernelStep cpu build) middle late after →
        ∀ idx ep, statesOf middle.sched idx = .blocked ep →
          (statesOf after.sched idx = .blocked ep ∨ ∃ taken ∈ late, DeliversOn build ep taken) ∧
          (¬ Live middle.world.arena ep.slot → (∀ taken ∈ late, ¬ Revives ep taken) →
            statesOf after.sched idx = .blocked ep ∧
              ∀ handle, after.sched.current = some handle ∨ handle ∈ lineOf after.sched.ready →
                slotOf handle ≠ idx) := by
  rcases boot_run cpu world machine anyone registrable with ⟨booted, first, rest, ran, _, intact, _⟩
  refine ⟨booted, ran, ?_⟩
  intro early middle late after reach run idx ep blocked
  have sound := (intact_of_run intact reach).1
  have ends := blocked_until_delivered sound run blocked
  refine ⟨ends, ?_⟩
  intro dead final
  have still : statesOf after.sched idx = .blocked ep := by
    rcases ends with still | ⟨taken, member, delivers⟩
    · exact still
    · exact absurd delivers.alive ((dead_of_run sound run dead final).1 taken member)
  refine ⟨still, ?_⟩
  intro handle runs same
  have reached := (intact_of_run sound run).1
  have ready := (reached.orderly.enrolled handle ((reached.runnable_iff handle).mp runs)).2
  rw [same] at ready
  cases ready.symm.trans still

end Boot

def destroyedIn (kernel : PlainKernel) (ep : EndpointHandle) : PlainKernel :=
  let freed := (ObjArena.destroyEndpoint ep kernel.world.arena).state?
  { kernel with world := { kernel.world with arena := freed.getD kernel.world.arena } }

theorem destroys_step {kernel : PlainKernel} (rest : AtRest kernel) (ep : EndpointHandle) :
    KernelStep plainCpu ⟨true⟩ kernel
      ⟨.elsewhere (destroyedIn kernel ep).world kernel.machine, .ok .computed⟩
      (destroyedIn kernel ep) := ⟨rest, rfl, rfl⟩

def destroyedTrio : PlainKernel :=
  destroyedIn (playedTo plainCpu ⟨true⟩ [recvBy 0] trio) ⟨⟨0, 0⟩⟩

theorem stranded_receivers_destroyed :
    statesOf (playedTo plainCpu ⟨true⟩ [yieldBy] destroyedTrio).sched 0 = .blocked ⟨⟨0, 0⟩⟩ ∧
      ∀ handle ∈ lineOf (playedTo plainCpu ⟨true⟩ [yieldBy] destroyedTrio).sched.ready,
        slotOf handle ≠ 0 := by
  rcases stranded_receivers plainCpu ⟨true⟩ sharedWorld (0, 0) (by simp) trio_registrable with
    ⟨reached, ran, held⟩
  have booted : trio = reached := booted_with ran
  rw [← booted] at held
  have receives : allPlayable plainCpu ⟨true⟩ id [recvBy 0] trio = true := by decide +kernel
  have yields : allPlayable plainCpu ⟨true⟩ id [yieldBy] destroyedTrio = true := by decide +kernel
  have rest : AtRest (playedTo plainCpu ⟨true⟩ [recvBy 0] trio) :=
    at_rest_true.mp (by decide +kernel)
  have early := run_weaken (fun _ _ _ step => step.1) (played_run receives)
  have late := run_weaken (fun _ _ _ step => step.1) (played_run yields)
  have destroys := destroys_step rest ⟨⟨0, 0⟩⟩
  have blocked : statesOf destroyedTrio.sched 0 = .blocked ⟨⟨0, 0⟩⟩ := by decide +kernel
  have gone : ObjArena.contains destroyedTrio.world.arena ⟨0, 0⟩ = false := by decide +kernel
  have dead : ¬ Live destroyedTrio.world.arena ⟨0, 0⟩ := by
    intro alive
    rcases ObjArena.get_iff.mpr alive with ⟨endpoint, found⟩
    rw [ObjArena.contains, found] at gone
    cases gone
  have calls : ∀ taken ∈ played plainCpu ⟨true⟩ [yieldBy] destroyedTrio,
      taken.label.event = .call .yieldNow := by
    intro taken member
    rw [List.mem_singleton.mp member]
    rfl
  have final : ∀ taken ∈ played plainCpu ⟨true⟩ [yieldBy] destroyedTrio, ¬ Revives ⟨⟨0, 0⟩⟩ taken := by
    intro taken member revives
    rcases revives.own with ⟨world, machine, own⟩
    cases (calls taken member).symm.trans own
  have stays := (held _ _ _ _ (.snoc early destroys) late 0 ⟨⟨0, 0⟩⟩ blocked).2 dead final
  exact ⟨stays.1, fun handle inLine => stays.2 handle (.inr inLine)⟩

end Tyrne.Sched
