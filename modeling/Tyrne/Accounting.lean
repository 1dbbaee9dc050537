import Tyrne.Bridge

/-!
# No task is lost or duplicated

In every run after boot, whatever happens to the shared objects, each registered task
is in control, in the ready queue once, or blocked; the queue, the states, the handles
and the current task agree; and the scheduler's own panics and assertions stay silent.
-/

namespace Tyrne.Sched

open Tyrne.Lib.Effect
open Tyrne.Lib.Runs
open Tyrne.Cap
open Tyrne.System (World)

set_option autoImplicit false

variable {Party Context Machine : Type}

def ExactlyOne (first second third : Prop) : Prop :=
  (first ∧ ¬ second ∧ ¬ third) ∨ (¬ first ∧ second ∧ ¬ third) ∨ (¬ first ∧ ¬ second ∧ third)

/-- Where the registered tasks are. -/
structure Accounted (registered : List TaskHandle) (sched : Scheduler Context) : Prop where
  running : ∃ current ∈ registered, sched.current = some current
  placed : ∀ handle ∈ registered, ExactlyOne (sched.current = some handle)
    ((lineOf sched.ready).count handle = 1)
    (∃ ep, sched.taskStates[slotOf handle]? = some (.blocked ep))
  ready : ∀ handle ∈ registered, sched.taskStates[slotOf handle]? = some .ready ↔
    sched.current = some handle ∨ handle ∈ lineOf sched.ready
  blocked : ∀ handle ∈ registered, (∃ ep, sched.taskStates[slotOf handle]? = some (.blocked ep)) ↔
    ¬ (sched.current = some handle ∨ handle ∈ lineOf sched.ready)
  idle : ∀ idx < taskArenaCapacity, sched.taskStates[idx]? = some .idle ↔
    ∀ handle ∈ registered, slotOf handle ≠ idx
  laid : Holds sched.ready (lineOf sched.ready)
  queued : ∀ handle ∈ lineOf sched.ready, handle ∈ registered ∧
    sched.taskHandles[slotOf handle]? = some (some handle)
  distinct : ((lineOf sched.ready).map slotOf).Nodup
  apart : ∀ current, sched.current = some current →
    slotOf current ∉ (lineOf sched.ready).map slotOf

/-! ## From an orderly roster -/

def Knows (roster : Roster) (registered : List TaskHandle) : Prop :=
  ∀ handle, handle ∈ registered ↔ roster.handles (slotOf handle) = some handle

theorem states_of_get (sched : Scheduler Context) {idx : Index} (state : TaskState)
    (inRange : idx < taskArenaCapacity) :
    sched.taskStates[idx]? = some state ↔ statesOf sched idx = state := by
  simp [statesOf, inRange]

theorem handles_of_get (sched : Scheduler Context) {idx : Index} (handle : TaskHandle)
    (inRange : idx < taskArenaCapacity) :
    sched.taskHandles[idx]? = some (some handle) ↔ handlesOf sched idx = some handle := by
  simp [handlesOf, inRange]

section Roster

variable {roster : Roster} (orderly : Orderly roster)
include orderly

theorem Orderly.ready_iff {handle : TaskHandle}
    (known : roster.handles (slotOf handle) = some handle) :
    roster.states (slotOf handle) = .ready ↔ handle ∈ roster.runnable := by
  constructor
  · intro isReady
    rcases orderly.attended _ isReady with ⟨other, member, slot⟩
    have stored := (orderly.enrolled other member).1
    rw [slot, known] at stored
    cases stored
    exact member
  · intro member
    exact (orderly.enrolled handle member).2

theorem Orderly.blocked_iff {handle : TaskHandle}
    (known : roster.handles (slotOf handle) = some handle) :
    (∃ ep, roster.states (slotOf handle) = .blocked ep) ↔ handle ∉ roster.runnable := by
  rw [← orderly.ready_iff known]
  cases state : roster.states (slotOf handle) with
  | idle =>
      rw [orderly.vacant, known] at state
      cases state
  | ready => simp
  | blocked ep => simp

theorem Orderly.count_one {handle : TaskHandle} (member : handle ∈ roster.ready) :
    roster.ready.count handle = 1 := by
  have distinct := (List.nodup_cons.mp orderly.distinct).2
  exact List.count_eq_one_of_mem (List.Nodup.of_map _ distinct) member

theorem Orderly.current_apart : roster.current ∉ roster.ready := by
  intro member
  exact orderly.current_not_ready (List.mem_map_of_mem member)

end Roster

section Kernel

variable {kernel after : Kernel Party Context Machine} {registered : List TaskHandle}

theorem Intact.current_iff (intact : Intact kernel) (handle : TaskHandle) :
    kernel.sched.current = some handle ↔ handle = (rosterOf kernel.sched).current := by
  rw [intact.shows.current]
  constructor
  · intro same
    exact (Option.some.inj same).symm
  · intro same
    rw [same]

theorem Intact.runnable_iff (intact : Intact kernel) (handle : TaskHandle) :
    kernel.sched.current = some handle ∨ handle ∈ lineOf kernel.sched.ready ↔
      handle ∈ (rosterOf kernel.sched).runnable := by
  rw [intact.current_iff]
  exact List.mem_cons.symm

theorem Intact.counted (intact : Intact kernel) (handle : TaskHandle) :
    (kernel.sched.current = some handle → handle ∉ lineOf kernel.sched.ready) ∧
      ((lineOf kernel.sched.ready).count handle = 1 ↔ handle ∈ lineOf kernel.sched.ready) := by
  have orderly := intact.orderly
  refine ⟨?_, ?_, ?_⟩
  · intro isCurrent inLine
    rw [intact.current_iff] at isCurrent
    subst isCurrent
    exact orderly.current_apart inLine
  · intro once
    apply List.count_pos_iff.mp
    omega
  · exact orderly.count_one

theorem Orderly.idle_iff {roster : Roster} (orderly : Orderly roster)
    (knows : Knows roster registered) (idx : Index) :
    roster.states idx = .idle ↔ ∀ handle ∈ registered, slotOf handle ≠ idx := by
  constructor
  · intro isIdle handle member slot
    subst slot
    have vacant := (orderly.vacant _).mp isIdle
    rw [(knows handle).mp member] at vacant
    cases vacant
  · intro nobody
    apply (orderly.vacant idx).mpr
    cases found : roster.handles idx with
    | none => rfl
    | some handle =>
        have slot := (orderly.home _ _ found).1
        refine absurd slot (nobody handle ((knows handle).mpr ?_))
        rw [slot]
        exact found

theorem Intact.accounted (intact : Intact kernel)
    (knows : Knows (rosterOf kernel.sched) registered) : Accounted registered kernel.sched := by
  have orderly := intact.orderly
  have enrolled : ∀ handle ∈ (rosterOf kernel.sched).runnable, handle ∈ registered :=
    fun handle member => (knows handle).mpr (orderly.enrolled handle member).1
  have stored : ∀ handle ∈ registered,
      (rosterOf kernel.sched).handles (slotOf handle) = some handle :=
    fun handle member => (knows handle).mp member
  have inRange : ∀ handle ∈ registered, slotOf handle < taskArenaCapacity :=
    fun handle member => (orderly.home _ _ (stored handle member)).2
  have ready : ∀ handle ∈ registered, kernel.sched.taskStates[slotOf handle]? = some .ready ↔
      kernel.sched.current = some handle ∨ handle ∈ lineOf kernel.sched.ready := by
    intro handle member
    rw [states_of_get _ _ (inRange handle member), intact.runnable_iff]
    exact orderly.ready_iff (stored handle member)
  have blocked : ∀ handle ∈ registered,
      (∃ ep, kernel.sched.taskStates[slotOf handle]? = some (.blocked ep)) ↔
        ¬ (kernel.sched.current = some handle ∨ handle ∈ lineOf kernel.sched.ready) := by
    intro handle member
    simp only [states_of_get _ _ (inRange handle member)]
    rw [intact.runnable_iff]
    exact orderly.blocked_iff (stored handle member)
  refine ⟨⟨_, enrolled _ List.mem_cons_self, intact.shows.current⟩, ?_, ready, blocked, ?_,
    intact.shows.ready, ?_, (List.nodup_cons.mp orderly.distinct).2, ?_⟩
  · intro handle member
    rcases intact.counted handle with ⟨once, counted⟩
    rw [ExactlyOne, blocked handle member, counted]
    tauto
  · intro idx bound
    rw [states_of_get _ _ bound]
    exact orderly.idle_iff knows idx
  · intro handle inLine
    have member := enrolled handle (List.mem_cons_of_mem _ inLine)
    refine ⟨member, ?_⟩
    rw [handles_of_get _ _ (inRange handle member)]
    exact stored handle member
  · intro current isCurrent
    rw [intact.current_iff] at isCurrent
    subst isCurrent
    exact orderly.current_not_ready

/-! ## Whole runs -/

theorem View.handles_turn (view : View Party) (suspend : Frame Party) :
    (view.turn suspend).roster.handles = view.roster.handles := by
  cases line : view.roster.ready with
  | nil => simp only [View.turn, line]
  | cons next rest => simp only [View.turn, line, Roster.handles_rotate]

variable [DecidableEq Party] {cpu : Cpu Context Machine} {build : Build}
  {trace : List (Transition (Kernel Party Context Machine) (KernelLabel Party Machine))}

theorem ViewStep.handles {view next : View Party} {event : Event Party Machine}
    {result : Except SchedError Reply} (step : ViewStep build view event result next) :
    next.roster.handles = view.roster.handles := by
  cases step with
  | yielded rest => exact View.handles_turn _ _
  | sent rest sends quiet => rfl
  | delivered rest resolves sends wakes =>
      rw [View.handles_turn, wakes]
      exact Roster.handles_wake _ _
  | received rest receives done => rfl
  | deadlocked rest receives alone => rfl
  | blocked rest resolves receives others => exact Roster.handles_block _ _
  | backFromYield suspended => rfl
  | backFromSend suspended => rfl
  | collected suspended receives done => rfl
  | pendingAfterResume suspended receives => rfl
  | elsewhere rest => rfl

theorem KernelStep.handles {label : KernelLabel Party Machine} (intact : Intact kernel)
    (step : KernelStep cpu build kernel label after) :
    (rosterOf after.sched).handles = (rosterOf kernel.sched).handles :=
  (step.view_step intact).2.handles

theorem intact_of_run (intact : Intact kernel)
    (run : Run (KernelStep cpu build) kernel trace after) :
    Intact after ∧ (rosterOf after.sched).handles = (rosterOf kernel.sched).handles := by
  induction run with
  | nil => exact ⟨intact, rfl⟩
  | snoc earlier step ih =>
      rcases ih with ⟨reached, same⟩
      exact ⟨(step.view_step reached).1, (step.handles reached).trans same⟩

end Kernel

theorem anyone_of_registered {registrations : List Registration} {handle : TaskHandle}
    (isRegistered : handle ∈ registrations.map Registration.handle) : registrations ≠ [] := by
  intro nobody
  rw [nobody] at isRegistered
  cases isRegistered

section Boot

variable (cpu : Cpu Context Machine) (world : World Party) (machine : Machine)

theorem starting_knows {first : TaskHandle} {rest : List TaskHandle}
    (registrable : Registrable (first :: rest)) :
    Knows (startingRoster first rest) (first :: rest) := by
  intro handle
  constructor
  · intro member
    exact registrable.find_slot member
  · intro found
    have listed : (first :: rest).find? (fun other => slotOf other = slotOf handle) =
        some handle := found
    exact List.mem_of_find?_eq_some listed

/-- After boot the roster is the starting one and nothing has happened to the shared
objects. -/
theorem boot_run {registrations : List Registration} (anyone : registrations ≠ [])
    (registrable : Registrable (registrations.map Registration.handle)) :
    ∃ booted first rest, start cpu registrations (powerOn cpu world machine) = .ok () booted ∧
      registrations.map Registration.handle = first :: rest ∧ Intact booted ∧
      viewOf booted = ⟨startingRoster first rest, world, fun _ => .outside⟩ := by
  rcases List.exists_cons_of_ne_nil anyone with ⟨first, rest, rfl⟩
  rcases start_run cpu world machine List.map_cons registrable with ⟨booted, ran, displays⟩
  exact ⟨booted, _, _, ran, List.map_cons, displays.intact (starting_orderly registrable),
    displays.view_of⟩

theorem starting_not_blocked (first : TaskHandle) (rest : List TaskHandle) (idx : Index)
    (ep : EndpointHandle) : (startingRoster first rest).states idx ≠ .blocked ep := by
  intro blocked
  simp only [startingRoster] at blocked
  split at blocked
  · cases blocked
  · cases blocked

variable [DecidableEq Party] (build : Build)

/-- Boot with at least one task, slots distinct and in range, succeeds; from then on,
whoever calls what and whatever else happens in between, every registered task is
accounted for, and a bridge function can only be stopped by an IPC operation: no
panic and no `debug_assert!` of the scheduler is ever reached. -/
theorem no_task_lost_or_duplicated {registrations : List Registration}
    (anyone : registrations ≠ [])
    (registrable : Registrable (registrations.map Registration.handle)) :
    ∃ booted, start cpu registrations (powerOn cpu world machine) = .ok () booted ∧
      ∀ trace after, Run (KernelStep cpu build) booted trace after →
        Accounted (registrations.map Registration.handle) after.sched ∧
        (∀ call reason, AtRest after → perform cpu build call after = .fault reason →
          ∃ inner, reason = .inner inner) ∧
        (∀ reason, ¬ AtRest after → resume cpu build after = .fault reason →
          ∃ inner, reason = .inner inner) := by
  rcases boot_run cpu world machine anyone registrable with
    ⟨booted, first, rest, ran, handles, intact, shown⟩
  refine ⟨booted, ran, ?_⟩
  intro trace after run
  rcases intact_of_run intact run with ⟨reached, same⟩
  have stillKnows : Knows (rosterOf after.sched) (registrations.map Registration.handle) := by
    intro handle
    rw [handles] at registrable ⊢
    rw [same, show rosterOf booted.sched = _ from congrArg View.roster shown]
    exact starting_knows registrable handle
  exact ⟨reached.accounted stillKnows, reached.faults⟩

end Boot

/-! ## A machine to run on -/

/-- One register and one interrupt mask; a context is a saved register. -/
def plainCpu : Cpu UInt64 (UInt64 × UInt64) where
  emptyContext := 0
  initContext := fun _ entry _ => entry
  disableIrqs := fun machine => (machine.2, (machine.1, 0x3c0))
  restoreIrqState := fun saved machine => (machine.1, saved)
  contextSwitch := fun _ next machine => (machine.1, (next, machine.2))

def sharedWorld : World Index where
  arena := System.soloWorld.arena
  queues := System.soloWorld.queues
  tables := fun _ => System.soloWorld.tables ()

abbrev PlainKernel : Type := Kernel Index UInt64 (UInt64 × UInt64)

def taskIn (idx : Index) : Registration := ⟨⟨⟨idx, 0⟩⟩, 0x1000, 0x2000⟩

def bootWith (registrations : List Registration) : PlainKernel :=
  (start plainCpu registrations (powerOn plainCpu sharedWorld (0, 0))).state?.getD
    (powerOn plainCpu sharedWorld (0, 0))

def kernelAfter (call : Call Index) (kernel : PlainKernel) : PlainKernel :=
  (perform plainCpu ⟨true⟩ call kernel).state?.getD kernel

theorem booted_with {registrations : List Registration} {booted : PlainKernel}
    (ran : start plainCpu registrations (powerOn plainCpu sharedWorld (0, 0)) = .ok () booted) :
    bootWith registrations = booted := by
  rw [bootWith, ran]
  rfl

theorem boots_with {registrations : List Registration} (anyone : registrations ≠ [])
    (registrable : Registrable (registrations.map Registration.handle)) :
    start plainCpu registrations (powerOn plainCpu sharedWorld (0, 0)) =
        .ok () (bootWith registrations) ∧
      (bootWith registrations).frames = fun _ => .outside := by
  rcases boot_run plainCpu sharedWorld (0, 0) anyone registrable with
    ⟨booted, _, _, ran, _, _, shown⟩
  rw [booted_with ran]
  exact ⟨ran, congrArg View.frames shown⟩

theorem no_task_lost_or_duplicated_pair :
    let booted := bootWith [taskIn 0, taskIn 1]
    KernelStep plainCpu ⟨true⟩ booted ⟨.call .yieldNow, .ok .switched⟩
        (kernelAfter .yieldNow booted) ∧
      Accounted [⟨⟨0, 0⟩⟩, ⟨⟨1, 0⟩⟩] (kernelAfter .yieldNow booted).sched := by
  intro booted
  have registrable : Registrable ([taskIn 0, taskIn 1].map Registration.handle) :=
    ⟨by decide, by decide⟩
  rcases no_task_lost_or_duplicated plainCpu sharedWorld (0, 0) ⟨true⟩ (by simp) registrable with
    ⟨reached, ran, accounted⟩
  have step : KernelStep plainCpu ⟨true⟩ booted ⟨.call .yieldNow, .ok .switched⟩
      (kernelAfter .yieldNow booted) :=
    ⟨⟨⟨⟨0, 0⟩⟩, by decide +kernel, by decide +kernel⟩, returned_of_report _ (by decide +kernel)⟩
  rw [← booted_with ran] at accounted
  exact ⟨step, (accounted _ _ (.snoc .nil step)).1⟩

end Tyrne.Sched
