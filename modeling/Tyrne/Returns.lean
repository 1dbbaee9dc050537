import Tyrne.IdleTask

/-!
# Every bridge function comes back

A bridge function could be stopped by a panic of the scheduler, by a panic or assertion of
an IPC operation, or by a loop without end. In a kernel whose roster is in order and whose
shared objects are sound none of this happens, and every run of lawful steps stays there.
-/

namespace Tyrne.Sched

open Tyrne.Lib.Effect
open Tyrne.Lib.Runs
open Tyrne.Cap
open Tyrne.Ipc
open Tyrne.System

set_option autoImplicit false

variable {Party Context Machine : Type}

/-! ## Where a fault comes from -/

section Faults

variable [DecidableEq Party] {cpu : Cpu Context Machine} {build : Build}
  {kernel : Kernel Party Context Machine}
  {view : View Party} (displays : Displays kernel view) (orderly : Orderly view.roster)
  {party : Party} {epCap : CapHandle} {msg : Message} {transfer : Option CapHandle}
  {reason : SchedFault}
include displays orderly

theorem send_faults
    (stopped : ipcSendAndYield cpu build party epCap msg transfer kernel = .fault reason) :
    ∃ inner, ipcSend build epCap msg transfer (seenBy kernel.world party) = .fault inner := by
  rcases resolve_cases (kernel.world.tables party) epCap with
    ⟨ep, named, resolved⟩ | ⟨unresolved, refused⟩
  · have resolves := @resolve_ok _ _ _ _ kernel _ _ _ resolved
    cases ran : ipcSend build epCap msg transfer (seenBy kernel.world party) with
    | fault inner => exact ⟨inner, rfl⟩
    | err error final => simp [ipcSendAndYield, resolves, as_party_err ran] at stopped
    | ok outcome final =>
        cases outcome with
        | enqueued => simp [ipcSendAndYield, resolves, as_party_ok ran] at stopped
        | delivered =>
            have stored := displays.stored (putBack kernel.world party final)
            rcases delivered_run cpu build stored orderly ep with
              ⟨guard, awake, switched, after, wakeRan, yieldRan, _, _⟩
            cases switched with
            | true =>
                simp [ipcSendAndYield, resolves, as_party_ok ran, wakeRan, yieldRan] at stopped
            | false =>
                simp [ipcSendAndYield, resolves, as_party_ok ran, wakeRan, yieldRan] at stopped
  · simp [ipcSendAndYield, resolve_err unresolved] at stopped

theorem recv_faults
    (stopped : ipcRecvAndYield cpu build party epCap kernel = .fault reason) :
    ∃ inner, ipcRecv build epCap (seenBy kernel.world party) = .fault inner := by
  rcases resolve_cases (kernel.world.tables party) epCap with
    ⟨ep, named, resolved⟩ | ⟨unresolved, refused⟩
  · have resolves := @resolve_ok _ _ _ _ kernel _ _ _ resolved
    cases ran : ipcRecv build epCap (seenBy kernel.world party) with
    | fault inner => exact ⟨inner, rfl⟩
    | err error final => simp [ipcRecvAndYield, resolves, as_party_err ran] at stopped
    | ok outcome final =>
        cases outcome with
        | received msg cap => simp [ipcRecvAndYield, resolves, as_party_ok ran] at stopped
        | pending =>
            have stored := displays.stored (putBack kernel.world party final)
            by_cases alone : view.roster.ready = []
            · have blockRan := deadlock_run build stored orderly ep alone
              simp [ipcRecvAndYield, resolves, as_party_ok ran, blockRan] at stopped
            · rcases blocked_run cpu build stored orderly ep alone
                (fun guard => .inRecv guard party epCap) with
                ⟨guard, indices, middle, after, blockRan, switchRan, _⟩
              simp [ipcRecvAndYield, resolves, as_party_ok ran, blockRan, switchRan] at stopped
  · simp [ipcRecvAndYield, resolve_err unresolved] at stopped

omit [DecidableEq Party] in
theorem yield_faults (stopped : yieldNow cpu build kernel = .fault reason) : False := by
  rcases yield_to_run cpu build displays orderly .inYield with ⟨guard, after, ran, _⟩
  cases line : view.roster.ready with
  | nil =>
      rw [line] at ran
      simp [yieldNow, ran] at stopped
  | cons next others =>
      rw [line] at ran
      simp [yieldNow, ran] at stopped

omit orderly in
theorem resume_faults (stopped : resume cpu build kernel = .fault reason) :
    ∃ guard party epCap inner, view.frame = .inRecv guard party epCap ∧
      ipcRecv build epCap (seenBy kernel.world party) = .fault inner := by
  have current : kernel.sched.current = some view.roster.current := displays.sched.current
  have frame : view.frame = kernel.frames view.roster.current.slot.index := by
    rw [displays.frames]
    rfl
  cases found : kernel.frames view.roster.current.slot.index with
  | outside => simp [resume, current, found] at stopped
  | inYield guard => simp [resume, leave, current, found] at stopped
  | inSend guard outcome => simp [resume, leave, current, found] at stopped
  | inRecv guard party epCap =>
      rcases leave_run cpu displays guard with ⟨middle, left, back⟩
      have world : middle.world = kernel.world := back.world.trans displays.world.symm
      simp only [slotOf] at left
      rw [← world]
      cases ran : ipcRecv build epCap (seenBy middle.world party) with
      | fault inner => exact ⟨guard, party, epCap, inner, frame.trans found, ran⟩
      | err error final => simp [resume, current, found, left, as_party_err ran] at stopped
      | ok outcome final =>
          cases outcome with
          | received msg cap => simp [resume, current, found, left, as_party_ok ran] at stopped
          | pending => simp [resume, current, found, left, as_party_ok ran] at stopped

end Faults

/-! ## Healthy kernels -/

section Healthy

variable {cpu : Cpu Context Machine} {build : Build} {kernel after : Kernel Party Context Machine}
  {world : World Party}

theorem ipc_send_never_faults (sound : Sound world) (party : Party) (epCap : CapHandle)
    (msg : Message) (transfer : Option CapHandle) (inner : Fault) :
    ipcSend build epCap msg transfer (seenBy world party) ≠ .fault inner := by
  rcases @ipc_send_returns (seenBy world party) (sound.tables party) sound.attended.drained
    epCap msg transfer with ⟨result, final, _, returned⟩
  intro stopped
  have came := returned build
  rw [stopped] at came
  exact not_returned_fault _ _ _ came

theorem ipc_recv_never_faults (sound : Sound world) (party : Party) (epCap : CapHandle)
    (inner : Fault) : ipcRecv build epCap (seenBy world party) ≠ .fault inner := by
  rcases @ipc_recv_returns (seenBy world party) (sound.tables party) sound.attended.drained
    epCap with ⟨result, final, _, returned⟩
  intro stopped
  have came := returned build
  rw [stopped] at came
  exact not_returned_fault _ _ _ came

theorem returned_of_no_fault {State Value : Type}
    {outcome : Outcome SchedFault SchedError State Value}
    (runs : ∀ reason, outcome ≠ .fault reason) :
    ∃ result final, outcome.Returned result final := by
  cases outcome with
  | ok value final => exact ⟨.ok value, final, rfl⟩
  | err error final => exact ⟨.error error, final, rfl⟩
  | fault reason => exact absurd rfl (runs reason)

/-- The roster is in order and the shared objects are sound. -/
structure Healthy (kernel : Kernel Party Context Machine) : Prop where
  intact : Intact kernel
  sound : Sound kernel.world

variable [DecidableEq Party]

theorem Healthy.perform_returns (healthy : Healthy kernel) (call : Call Party) :
    ∃ result final, (perform cpu build call kernel).Returned result final := by
  have displays := healthy.intact.displays
  have orderly := healthy.intact.orderly
  apply returned_of_no_fault
  intro reason stopped
  cases call with
  | yieldNow => exact yield_faults displays orderly stopped
  | ipcSendAndYield party epCap msg transfer =>
      rcases send_faults displays orderly stopped with ⟨inner, faulted⟩
      exact ipc_send_never_faults healthy.sound party epCap msg transfer inner faulted
  | ipcRecvAndYield party epCap =>
      rcases recv_faults displays orderly stopped with ⟨inner, faulted⟩
      exact ipc_recv_never_faults healthy.sound party epCap inner faulted

theorem Healthy.resume_returns (healthy : Healthy kernel) :
    ∃ result final, (resume cpu build kernel).Returned result final := by
  apply returned_of_no_fault
  intro reason stopped
  rcases resume_faults healthy.intact.displays stopped with ⟨_, party, epCap, inner, _, faulted⟩
  exact ipc_recv_never_faults healthy.sound party epCap inner faulted

end Healthy

/-! ## Whole runs -/

section Runs

variable [DecidableEq Party] (cpu : Cpu Context Machine) (build : Build)

/-- A kernel step; between bridge calls anything lawful may be done to the shared
objects. -/
def LawfulStep (kernel : Kernel Party Context Machine) (label : KernelLabel Party Machine)
    (after : Kernel Party Context Machine) : Prop :=
  KernelStep cpu build kernel label after ∧ Lawful build kernel.world label.event

variable {cpu build} in
theorem LawfulStep.healthy {before after : Kernel Party Context Machine}
    {label : KernelLabel Party Machine} (healthy : Healthy before)
    (step : LawfulStep cpu build before label after) : Healthy after := by
  rcases step.1.view_step healthy.intact with ⟨intact, moved⟩
  exact ⟨intact, moved.sound step.2 healthy.sound⟩

/-- From boot on, whatever tasks call, with whatever arguments, and whatever is lawfully
done in between: no bridge function and no resumption ever panics, fails an assertion or
runs for ever. -/
theorem bridge_calls_return (machine : Machine) {world : World Party} (fresh : Fresh world)
    {registrations : List Registration} (anyone : registrations ≠ [])
    (registrable : Registrable (registrations.map Registration.handle)) :
    ∃ booted, start cpu registrations (powerOn cpu world machine) = .ok () booted ∧
      ∀ trace after, Run (LawfulStep cpu build) booted trace after →
        (∀ call, ∃ result final, (perform cpu build call after).Returned result final) ∧
        ∃ result final, (resume cpu build after).Returned result final := by
  rcases boot_run cpu world machine anyone registrable with
    ⟨booted, first, rest, started, _, intact, shown⟩
  have sound : Sound booted.world := by
    rw [show booted.world = world from congrArg View.world shown]
    exact fresh.sound
  refine ⟨booted, started, ?_⟩
  intro trace after run
  have healthy : Healthy after := by
    apply run_invariant (Healthy.mk intact sound) _ run
    intro before label reached held step
    exact step.healthy held
  exact ⟨fun call => healthy.perform_returns call, healthy.resume_returns⟩

end Runs

/-- Two tasks on a shared endpoint. -/
theorem bridge_calls_return_pair :
    ∃ booted, start plainCpu [taskIn 0, taskIn 1] (powerOn plainCpu sharedWorld (0, 0)) =
        .ok () booted ∧
      ∀ trace after, Run (LawfulStep plainCpu ⟨true⟩) booted trace after →
        (∀ call, ∃ result final, (perform plainCpu ⟨true⟩ call after).Returned result final) ∧
        ∃ result final, (resume plainCpu ⟨true⟩ after).Returned result final :=
  bridge_calls_return plainCpu ⟨true⟩ (0, 0) shared_world_fresh (by simp)
    ⟨by decide, by decide⟩

end Tyrne.Sched
