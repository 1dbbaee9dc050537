import Tyrne.EndpointMachine
import Tyrne.IdleTask
import Tyrne.SwitchWindow

/-!
# Errors of the bridge functions

A bridge function that comes back with an error has either left the scheduler alone or taken
back what it did to it, and so has a send that only put its message down. A failed send has
changed nothing else either.
-/

namespace Tyrne.Sched

open Tyrne.Lib.Effect
open Tyrne.Lib.Runs
open Tyrne.Cap
open Tyrne.Ipc
open Tyrne.System (World Sound Unchanged Reachable seenBy)

set_option autoImplicit false

variable {Party Context Machine : Type}

/-- Everything but the shared objects: the scheduler with the ready queue, the states, the
handles and the contexts; the registers; and where each task goes on. -/
def controlOf (kernel : Kernel Party Context Machine) :
    Scheduler Context × Machine × (Index → Frame Party) :=
  (kernel.sched, kernel.machine, kernel.frames)

/-! ## The functions -/

section Functions

variable {cpu : Cpu Context Machine} {build : Build}
  {kernel after : Kernel Party Context Machine} {party : Party} {epCap : CapHandle}

theorem Intact.of_control {middle : Kernel Party Context Machine} (intact : Intact kernel)
    (same : controlOf middle = controlOf kernel) : Intact middle := by
  have sched : middle.sched = kernel.sched := congrArg Prod.fst same
  constructor
  · rw [sched]
    exact intact.shows
  · rw [sched]
    exact intact.orderly

variable [DecidableEq Party]

theorem keeps_control {Value : Type} (party : Party) (computation : IpcM Value) :
    Keeps (@controlOf Party Context Machine) (asParty party computation) :=
  keeps_as_party (fun _ _ => rfl) party computation

theorem send_control {msg : Message} {transfer : Option CapHandle}
    {result : Except SchedError Reply} (intact : Intact kernel)
    (returned : (ipcSendAndYield cpu build party epCap msg transfer kernel).Returned result after) :
    controlOf after = controlOf kernel ∨ result = .ok .switched ∨ result = .ok (.sent .delivered) := by
  rcases returned.bind with ⟨error, failed, rfl⟩ | ⟨ep, resolved, ran, rest⟩
  · exact Or.inl ((keeps_control party _).failed failed)
  · have early := (keeps_control party _).ran ran
    rcases rest.bind with ⟨error, failed, rfl⟩ | ⟨outcome, sent, ran, rest⟩
    · have late := (keeps_control party _).failed failed
      exact Or.inl (late.trans early)
    · have late := (keeps_control party _).ran ran
      cases outcome with
      | enqueued =>
          cases result with
          | error error => cases rest
          | ok reply =>
              cases rest
              exact Or.inl (late.trans early)
      | delivered =>
          have reached := intact.of_control (late.trans early)
          rcases delivered_run cpu build reached.displays reached.orderly ep with
            ⟨guard, awake, switched, final, wakeRan, yieldRan, _⟩
          simp only [if_true, bind_run, wakeRan, yieldRan, and_then_ok] at rest
          cases switched with
          | true => exact Or.inr (Or.inl (returned_of_ok rest).1)
          | false => exact Or.inr (Or.inr (returned_of_ok rest).1)

/-- A receive that fails before it has given up control has left the scheduler alone, or put
back what Phase 2 had changed. -/
theorem recv_control {error : SchedError} (intact : Intact kernel)
    (returned : (ipcRecvAndYield cpu build party epCap kernel).Returned (.error error) after) :
    controlOf after = controlOf kernel := by
  rcases returned.bind with ⟨_, failed, _⟩ | ⟨ep, resolved, ran, rest⟩
  · exact (keeps_control party _).failed failed
  · have early := (keeps_control party _).ran ran
    rcases rest.bind with ⟨_, failed, _⟩ | ⟨outcome, tried, ran, rest⟩
    · have late := (keeps_control party _).failed failed
      exact late.trans early
    · have late := (keeps_control party _).ran ran
      cases outcome with
      | received msg cap => cases rest
      | pending =>
          have reached := intact.of_control (late.trans early)
          by_cases alone : (rosterOf tried.sched).ready = []
          · have blockRan := deadlock_run build reached.displays reached.orderly ep alone
            simp only [bind_run, blockRan, and_then_err] at rest
            cases rest
            exact late.trans early
          · -- with another task in line the switch is made, and it cannot fail
            rcases blocked_run cpu build reached.displays reached.orderly ep alone
              (fun guard => .inRecv guard party epCap) with
              ⟨guard, indices, middle, final, blockRan, switchRan, _⟩
            simp only [bind_run, blockRan, and_then_ok, switchRan] at rest
            cases rest

end Functions

/-! ## Worlds -/

section Worlds

variable [DecidableEq Party] {build : Build} {world after : World Party} {party : Party}
  {epCap : CapHandle} {msg : Message} {transfer : Option CapHandle}

/-- A send that fails leaves the tables, the arena and the states of the endpoints. -/
theorem Sends.unchanged {error : IpcError} (sound : Sound world)
    (sends : Sends build world party epCap msg transfer (.error error) after) :
    Unchanged world after := by
  rcases sends with ⟨final, returned, rfl⟩
  have answered := @System.ipc_send_answers (seenBy world party) (sound.tables party)
    sound.attended.drained epCap msg transfer build
  rcases answered.unique returned with ⟨failed, rfl⟩
  exact System.send_harmless.unchanged failed

end Worlds

/-! ## Runs -/

section Runs

variable [DecidableEq Party] (cpu : Cpu Context Machine) (build : Build)

/-- A kernel step, with lawful calls of any party to the shared objects in between. -/
def OpenStep (kernel : Kernel Party Context Machine) (label : KernelLabel Party Machine)
    (after : Kernel Party Context Machine) : Prop :=
  KernelStep cpu build kernel label after ∧ Lawful build kernel.world label.event

/-- Only a send that delivered is ever suspended. -/
def HasDelivered (frame : Frame Party) : Prop :=
  ∀ guard outcome, frame = .inSend guard outcome → outcome = .delivered

/-- What holds of the kernel in every open run. -/
structure Upright (kernel : Kernel Party Context Machine) : Prop where
  intact : Intact kernel
  sound : Sound kernel.world
  suspended : ∀ idx, HasDelivered (kernel.frames idx)

variable {cpu build} {kernel after : Kernel Party Context Machine}
  {label : KernelLabel Party Machine}

theorem ViewStep.suspended {view next : View Party} {event : Event Party Machine}
    {result : Except SchedError Reply} (suspended : ∀ idx, HasDelivered (view.frames idx))
    (step : ViewStep build view event result next) : ∀ idx, HasDelivered (next.frames idx) := by
  have updated : ∀ (place : Index) (frame : Frame Party), HasDelivered frame →
      ∀ idx, HasDelivered (Function.update view.frames place frame idx) := by
    intro place frame delivered idx
    by_cases same : idx = place
    · rw [same, Function.update_self]
      exact delivered
    · rw [Function.update_of_ne same]
      exact suspended idx
  have turned : ∀ (other : View Party) (frame : Frame Party), other.frames = view.frames →
      HasDelivered frame → ∀ idx, HasDelivered ((other.turn frame).frames idx) := by
    intro other frame same delivered
    cases line : other.roster.ready with
    | nil =>
        simp only [View.turn, line, same]
        exact suspended
    | cons first rest =>
        simp only [View.turn, line, same]
        exact updated _ _ delivered
  cases step with
  | yielded _ => exact turned view _ rfl (by simp [HasDelivered])
  | sent _ _ _ => exact suspended
  | delivered _ _ _ wakes =>
      apply turned _ _ (by rw [wakes])
      rintro guard outcome ⟨⟩
      rfl
  | received _ _ _ => exact suspended
  | deadlocked _ _ _ => exact suspended
  | blocked _ _ _ _ => exact updated _ _ (by simp [HasDelivered])
  | backFromYield _ => exact updated _ _ (by simp [HasDelivered])
  | backFromSend _ => exact updated _ _ (by simp [HasDelivered])
  | collected _ _ _ => exact updated _ _ (by simp [HasDelivered])
  | pendingAfterResume _ _ => exact updated _ _ (by simp [HasDelivered])
  | elsewhere _ => exact suspended

theorem Upright.step (upright : Upright kernel) (step : OpenStep cpu build kernel label after) :
    Upright after := by
  rcases step with ⟨step, lawful⟩
  rcases step.view_step upright.intact with ⟨intact, viewed⟩
  exact ⟨intact, viewed.sound lawful upright.sound, viewed.suspended upright.suspended⟩

theorem Upright.send_fails (upright : Upright kernel) {party : Party} {epCap : CapHandle}
    {msg : Message} {transfer : Option CapHandle} {error : SchedError}
    (step : KernelStep cpu build kernel
      ⟨.call (.ipcSendAndYield party epCap msg transfer), .error error⟩ after) :
    controlOf after = controlOf kernel ∧ Unchanged kernel.world after.world := by
  constructor
  · rcases send_control upright.intact step.2 with same | switched | delivered
    · exact same
    · cases switched
    · cases delivered
  · have viewed := (step.view_step upright.intact).2
    simp only at viewed
    generalize reported : (.error error : Except SchedError Reply) = result at viewed
    generalize reached : viewOf after = next at viewed
    have world : after.world = next.world := congrArg View.world reached
    rw [world]
    cases viewed with
    | @sent _ _ _ _ sent _ _ sends _ =>
        cases sent with
        | ok outcome => cases reported
        | error cause => exact sends.unchanged upright.sound
    | delivered _ _ _ _ => cases reported

theorem Upright.send_resumes (upright : Upright kernel) {current : TaskHandle} {guard : IrqState}
    {outcome : SendOutcome} {result : Except SchedError Reply}
    (control : kernel.sched.current = some current)
    (suspended : kernel.frames (slotOf current) = .inSend guard outcome)
    (step : KernelStep cpu build kernel ⟨.resume, result⟩ after) :
    result = .ok (.sent .delivered) := by
  have delivered := upright.suspended _ _ _ suspended
  have frame : (viewOf kernel).frame = .inSend guard outcome := by
    rw [upright.intact.current_iff] at control
    rw [control] at suspended
    exact suspended
  have viewed := (step.view_step upright.intact).2
  simp only at viewed
  generalize viewOf after = next at viewed
  cases viewed with
  | backFromSend found =>
      cases frame.symm.trans found
      rw [delivered]
  | backFromYield found => cases frame.symm.trans found
  | collected found _ _ => cases frame.symm.trans found
  | pendingAfterResume found _ => cases frame.symm.trans found

end Runs

section Boot

variable [DecidableEq Party] (cpu : Cpu Context Machine) (build : Build) (machine : Machine)

/-- In every state a run after boot leads to, whoever calls and with whatever arguments:
a failing `ipc_send_and_yield` has changed nothing; a failing `ipc_recv_and_yield` that has not
given up control has changed nothing but the shared objects, and so has a send that enqueued;
and a send that gave up control comes back as delivered. -/
theorem errors_leave_scheduler {world : World Party} (reachable : Reachable build world)
    {registrations : List Registration} (anyone : registrations ≠ [])
    (registrable : Registrable (registrations.map Registration.handle)) :
    ∃ booted, start cpu registrations (powerOn cpu world machine) = .ok () booted ∧
      ∀ trace kernel, Run (OpenStep cpu build) booted trace kernel →
        (∀ party epCap msg transfer error after,
          KernelStep cpu build kernel
            ⟨.call (.ipcSendAndYield party epCap msg transfer), .error error⟩ after →
          controlOf after = controlOf kernel ∧ Unchanged kernel.world after.world) ∧
        (∀ party epCap error after,
          KernelStep cpu build kernel ⟨.call (.ipcRecvAndYield party epCap), .error error⟩ after →
          controlOf after = controlOf kernel) ∧
        (∀ party epCap msg transfer after,
          KernelStep cpu build kernel
            ⟨.call (.ipcSendAndYield party epCap msg transfer), .ok (.sent .enqueued)⟩ after →
          controlOf after = controlOf kernel) ∧
        ∀ current guard outcome result after, kernel.sched.current = some current →
          kernel.frames (slotOf current) = .inSend guard outcome →
          KernelStep cpu build kernel ⟨.resume, result⟩ after →
          result = .ok (.sent .delivered) := by
  rcases boot_run cpu world machine anyone registrable with
    ⟨booted, first, rest, ran, handles, intact, shown⟩
  refine ⟨booted, ran, ?_⟩
  intro trace kernel run
  have sound : Sound booted.world := by
    rw [show booted.world = _ from congrArg View.world shown]
    exact reachable.sound
  have outside : booted.frames = fun _ => .outside := congrArg View.frames shown
  have started : Upright booted := ⟨intact, sound, fun idx => by rw [outside]; nofun⟩
  have upright : Upright kernel :=
    run_invariant started (fun _ _ _ earlier step => earlier.step step) run
  refine ⟨?_, ?_, ?_, ?_⟩
  · intro party epCap msg transfer error after step
    exact upright.send_fails step
  · intro party epCap error after step
    exact recv_control upright.intact step.2
  · intro party epCap msg transfer after step
    rcases send_control upright.intact step.2 with same | switched | delivered
    · exact same
    · cases switched
    · cases delivered
  · intro current guard outcome result after control suspended step
    exact upright.send_resumes control suspended step

end Boot

def waitingKernel : Kernel Unit UInt64 (UInt64 × UInt64) :=
  let initial := powerOn plainCpu (System.reached ⟨true⟩ System.waitingOps) (0, 0)
  (start plainCpu [taskIn 0] initial).state?.getD initial

theorem errors_leave_scheduler_waiting :
    ∃ after, KernelStep plainCpu ⟨true⟩ waitingKernel
        ⟨.call (.ipcSendAndYield () ⟨0, 0⟩ ⟨1, #v[2, 3, 4]⟩ (some ⟨5, 0⟩)),
          .error (.ipc .invalidTransferCap)⟩ after ∧
      controlOf after = controlOf waitingKernel ∧ Unchanged waitingKernel.world after.world := by
  have reachable : Reachable ⟨true⟩ (System.reached ⟨true⟩ System.waitingOps) :=
    System.reached_reachable ⟨true⟩ (by simp [System.waitingOps])
  have registrable : Registrable ([taskIn 0].map Registration.handle) := ⟨by decide, by decide⟩
  rcases errors_leave_scheduler plainCpu ⟨true⟩ (0, 0) reachable (by simp) registrable with
    ⟨booted, ran, lawful⟩
  have same : waitingKernel = booted := by
    rw [waitingKernel]
    simp only [ran]
    rfl
  rw [← same] at lawful
  have step : KernelStep plainCpu ⟨true⟩ waitingKernel
      ⟨.call (.ipcSendAndYield () ⟨0, 0⟩ ⟨1, #v[2, 3, 4]⟩ (some ⟨5, 0⟩)),
        .error (.ipc .invalidTransferCap)⟩ _ :=
    ⟨⟨⟨⟨0, 0⟩⟩, by decide +kernel, by decide +kernel⟩,
      returned_of_report waitingKernel (by decide +kernel)⟩
  exact ⟨_, step, (lawful _ _ .nil).1 _ _ _ _ _ _ step⟩

end Tyrne.Sched
