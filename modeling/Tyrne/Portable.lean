import Tyrne.ContextIntegrity
import Tyrne.Dispatch
import Tyrne.Lib.Lockstep
import Tyrne.Returns

/-!
# One kernel on two processors

The kernel is written for any processor whose `context_switch` suspends its caller until it is
switched back to. On two of them, whatever their contexts, machines and interrupt states are, the
same calls have the same results and leave the same tasks, objects and tables.
-/

namespace Tyrne.Sched

open Tyrne.Lib.Effect
open Tyrne.Lib.Runs
open Tyrne.Lib.Lockstep
open Tyrne.Cap
open Tyrne.Ipc
open Tyrne.System

set_option autoImplicit false

variable {Party Context Machine PeerContext PeerMachine : Type}

/-! ## What is the same -/

/-- A frame without the interrupt state it keeps. -/
def Frame.unguarded : Frame Party → Frame Party
  | .outside => .outside
  | .inYield _ => .inYield 0
  | .inSend _ outcome => .inSend 0 outcome
  | .inRecv _ party epCap => .inRecv 0 party epCap

namespace Frame

variable {frame : Frame Party}

theorem unguarded_outside : frame.unguarded = .outside ↔ frame = .outside := by
  cases frame <;> simp [unguarded]

theorem in_yield_of_unguarded (same : frame.unguarded = .inYield 0) :
    ∃ guard, frame = .inYield guard := by
  cases frame <;> cases same
  exact ⟨_, rfl⟩

theorem in_send_of_unguarded {outcome : SendOutcome} (same : frame.unguarded = .inSend 0 outcome) :
    ∃ guard, frame = .inSend guard outcome := by
  cases frame <;> cases same
  exact ⟨_, rfl⟩

theorem in_recv_of_unguarded {party : Party} {epCap : CapHandle}
    (same : frame.unguarded = .inRecv 0 party epCap) :
    ∃ guard, frame = .inRecv guard party epCap := by
  cases frame <;> cases same
  exact ⟨_, rfl⟩

end Frame

namespace View

/-- The views differ at most in the interrupt states that suspended calls keep. -/
structure Alike (left right : View Party) : Prop where
  roster : left.roster = right.roster
  world : left.world = right.world
  frames : ∀ idx, (left.frames idx).unguarded = (right.frames idx).unguarded

namespace Alike

variable {left right : View Party} (alike : left.Alike right)
include alike

theorem frame : left.frame.unguarded = right.frame.unguarded := by
  rw [View.frame, View.frame, alike.roster]
  exact alike.frames _

theorem symm : right.Alike left :=
  ⟨alike.roster.symm, alike.world.symm, fun idx => (alike.frames idx).symm⟩

theorem suspended (idx : Index) {suspend other : Frame Party}
    (same : suspend.unguarded = other.unguarded) (place : Index) :
    (Function.update left.frames idx suspend place).unguarded =
      (Function.update right.frames idx other place).unguarded := by
  by_cases here : place = idx
  · subst here
    rw [Function.update_self, Function.update_self]
    exact same
  · rw [Function.update_of_ne here, Function.update_of_ne here]
    exact alike.frames place

theorem back : left.back.Alike right.back := by
  refine ⟨alike.roster, alike.world, ?_⟩
  intro idx
  rw [View.back, View.back, alike.roster]
  exact alike.suspended _ rfl idx

theorem turned (alone : Reply) : left.turned alone = right.turned alone := by
  rw [View.turned, View.turned, alike.roster]

theorem turn {suspend other : Frame Party} (same : suspend.unguarded = other.unguarded) :
    (left.turn suspend).Alike (right.turn other) := by
  cases line : left.roster.ready with
  | nil =>
      have lineToo : right.roster.ready = [] := by rw [← alike.roster, line]
      simp only [View.turn, line, lineToo]
      exact alike
  | cons next rest =>
      have lineToo : right.roster.ready = next :: rest := by rw [← alike.roster, line]
      simp only [View.turn, lineToo, alike.roster]
      exact ⟨rfl, alike.world, alike.suspended _ same⟩

theorem withWorld {world other : World Party} (same : world = other) :
    (left.withWorld world).Alike (right.withWorld other) := ⟨alike.roster, same, alike.frames⟩

theorem resolved {party : Party} {epCap : CapHandle} {ep found : EndpointHandle}
    (resolves : endpointAt (left.world.tables party) epCap = some ep)
    (resolvesToo : endpointAt (right.world.tables party) epCap = some found) : ep = found := by
  rw [← alike.world] at resolvesToo
  exact Option.some.inj (resolves.symm.trans resolvesToo)

theorem woken (ep : EndpointHandle) (world : World Party) :
    View.Alike ⟨left.roster.wake ep, world, left.frames⟩
      ⟨right.roster.wake ep, world, right.frames⟩ :=
  ⟨congrArg (fun roster => roster.wake ep) alike.roster, rfl, alike.frames⟩

theorem blocked (ep : EndpointHandle) (world : World Party) {suspend other : Frame Party}
    (same : suspend.unguarded = other.unguarded) :
    View.Alike
      ⟨left.roster.block ep, world,
        Function.update left.frames (slotOf left.roster.current) suspend⟩
      ⟨right.roster.block ep, world,
        Function.update right.frames (slotOf right.roster.current) other⟩ := by
  refine ⟨congrArg (fun roster => roster.block ep) alike.roster, rfl, ?_⟩
  rw [← alike.roster]
  exact alike.suspended _ same

end Alike

end View

/-- The events ask for the same; between calls the machines may change as they like. -/
def Event.Alike : Event Party Machine → Event Party PeerMachine → Prop
  | .call left, .call right => left = right
  | .resume, .resume => True
  | .elsewhere left _, .elsewhere right _ => left = right
  | .call _, _ | .resume, _ | .elsewhere _ _, _ => False

structure KernelLabel.Alike (left : KernelLabel Party Machine)
    (right : KernelLabel Party PeerMachine) : Prop where
  event : left.event.Alike right.event
  result : left.result = right.result

def Kernel.Alike (left : Kernel Party Context Machine)
    (right : Kernel Party PeerContext PeerMachine) :
    Prop :=
  (viewOf left).Alike (viewOf right)

/-! ## One step -/

section Steps

variable [DecidableEq Party] {build : Build} {world after other : World Party} {party : Party}
  {epCap : CapHandle} {msg : Message} {transfer : Option CapHandle}

theorem Sends.unique {result found : Except IpcError SendOutcome}
    (first : Sends build world party epCap msg transfer result after)
    (second : Sends build world party epCap msg transfer found other) :
    result = found ∧ after = other := by
  rcases first with ⟨final, returned, rfl⟩
  rcases second with ⟨end_, came, rfl⟩
  rcases returned.unique came with ⟨same, rfl⟩
  exact ⟨same, rfl⟩

theorem Receives.unique {result found : Except IpcError RecvOutcome}
    (first : Receives build world party epCap result after)
    (second : Receives build world party epCap found other) : result = found ∧ after = other := by
  rcases first with ⟨final, returned, rfl⟩
  rcases second with ⟨end_, came, rfl⟩
  rcases returned.unique came with ⟨same, rfl⟩
  exact ⟨same, rfl⟩

variable {left right leftNext rightNext : View Party} {leftEvent : Event Party Machine}
  {rightEvent : Event Party PeerMachine} {leftResult rightResult : Except SchedError Reply}

theorem View.Alike.sent (views : left.Alike right) {result found : Except IpcError SendOutcome}
    (sends : Sends build left.world party epCap msg transfer result after)
    (sendsToo : Sends build right.world party epCap msg transfer found other) :
    result = found ∧ after = other := by
  rw [← views.world] at sendsToo
  exact sends.unique sendsToo

theorem View.Alike.received (views : left.Alike right) {result found : Except IpcError RecvOutcome}
    (receives : Receives build left.world party epCap result after)
    (receivesToo : Receives build right.world party epCap found other) :
    result = found ∧ after = other := by
  rw [← views.world] at receivesToo
  exact receives.unique receivesToo

theorem ViewStep.alike_send (views : left.Alike right)
    (step : ViewStep build left
      (.call (.ipcSendAndYield party epCap msg transfer) : Event Party Machine)
      leftResult leftNext)
    (alongside : ViewStep build right
      (.call (.ipcSendAndYield party epCap msg transfer) : Event Party PeerMachine) rightResult
      rightNext) :
    leftResult = rightResult ∧ leftNext.Alike rightNext := by
  cases step with
  | sent rest sends quiet =>
      cases alongside with
      | sent restToo sendsToo quietToo =>
          rcases views.sent sends sendsToo with ⟨rfl, same⟩
          exact ⟨rfl, views.withWorld same⟩
      | delivered restToo resolves sendsToo wakes =>
          exact absurd (views.sent sends sendsToo).1 quiet
  | @delivered _ _ _ _ ep world woken guard rest resolves sends wakes =>
      cases alongside with
      | sent restToo sendsToo quietToo =>
          exact absurd (views.sent sends sendsToo).1.symm quietToo
      | delivered restToo resolvesToo sendsToo wakesToo =>
          subst wakes wakesToo
          cases views.resolved resolves resolvesToo
          cases (views.sent sends sendsToo).2
          have alike := views.woken ep world
          exact ⟨congrArg Except.ok (alike.turned _), alike.turn rfl⟩

theorem ViewStep.alike_receive (views : left.Alike right)
    (step : ViewStep build left (.call (.ipcRecvAndYield party epCap) : Event Party Machine)
      leftResult leftNext)
    (alongside : ViewStep build right
      (.call (.ipcRecvAndYield party epCap) : Event Party PeerMachine)
      rightResult rightNext) :
    leftResult = rightResult ∧ leftNext.Alike rightNext := by
  cases step with
  | received rest receives done =>
      cases alongside with
      | received restToo receivesToo doneToo =>
          rcases views.received receives receivesToo with ⟨rfl, same⟩
          exact ⟨rfl, views.withWorld same⟩
      | deadlocked restToo receivesToo alone =>
          exact absurd (views.received receives receivesToo).1 done
      | blocked restToo resolves receivesToo others =>
          exact absurd (views.received receives receivesToo).1 done
  | deadlocked rest receives alone =>
      cases alongside with
      | received restToo receivesToo doneToo =>
          exact absurd (views.received receives receivesToo).1.symm doneToo
      | deadlocked restToo receivesToo aloneToo =>
          exact ⟨rfl, views.withWorld (views.received receives receivesToo).2⟩
      | blocked restToo resolves receivesToo others =>
          rw [views.roster] at alone
          exact absurd alone others
  | blocked rest resolves receives others =>
      cases alongside with
      | received restToo receivesToo doneToo =>
          exact absurd (views.received receives receivesToo).1.symm doneToo
      | deadlocked restToo receivesToo alone =>
          rw [views.roster] at others
          exact absurd alone others
      | blocked restToo resolvesToo receivesToo othersToo =>
          cases views.resolved resolves resolvesToo
          cases (views.received receives receivesToo).2
          exact ⟨rfl, views.blocked _ _ rfl⟩

theorem ViewStep.alike_resume (views : left.Alike right)
    (step : ViewStep build left (.resume : Event Party Machine) leftResult leftNext)
    (alongside : ViewStep build right (.resume : Event Party PeerMachine) rightResult rightNext) :
    leftResult = rightResult ∧ leftNext.Alike rightNext := by
  have frame := views.frame
  cases step with
  | backFromYield suspended =>
      rw [suspended] at frame
      rcases Frame.in_yield_of_unguarded frame.symm with ⟨guard, here⟩
      cases alongside with
      | backFromYield suspendedToo => exact ⟨rfl, views.back⟩
      | backFromSend there | collected there | pendingAfterResume there =>
          cases here.symm.trans there
  | backFromSend suspended =>
      rw [suspended] at frame
      rcases Frame.in_send_of_unguarded frame.symm with ⟨guard, here⟩
      cases alongside with
      | backFromSend there =>
          cases here.symm.trans there
          exact ⟨rfl, views.back⟩
      | backFromYield there | collected there | pendingAfterResume there =>
          cases here.symm.trans there
  | collected suspended receives done =>
      rw [suspended] at frame
      rcases Frame.in_recv_of_unguarded frame.symm with ⟨guard, here⟩
      cases alongside with
      | collected there receivesToo doneToo =>
          cases here.symm.trans there
          rcases views.received receives receivesToo with ⟨rfl, same⟩
          exact ⟨rfl, views.back.withWorld same⟩
      | pendingAfterResume there receivesToo =>
          cases here.symm.trans there
          exact absurd (views.received receives receivesToo).1 done
      | backFromYield there | backFromSend there => cases here.symm.trans there
  | pendingAfterResume suspended receives =>
      rw [suspended] at frame
      rcases Frame.in_recv_of_unguarded frame.symm with ⟨guard, here⟩
      cases alongside with
      | collected there receivesToo doneToo =>
          cases here.symm.trans there
          exact absurd (views.received receives receivesToo).1.symm doneToo
      | pendingAfterResume there receivesToo =>
          cases here.symm.trans there
          exact ⟨rfl, views.back.withWorld (views.received receives receivesToo).2⟩
      | backFromYield there | backFromSend there => cases here.symm.trans there

theorem ViewStep.alike (step : ViewStep build left leftEvent leftResult leftNext)
    (alongside : ViewStep build right rightEvent rightResult rightNext)
    (views : left.Alike right) (events : leftEvent.Alike rightEvent) :
    leftResult = rightResult ∧ leftNext.Alike rightNext := by
  cases leftEvent with
  | call call =>
      cases rightEvent with
      | call other =>
          cases events
          cases call with
          | yieldNow =>
              cases step with
              | yielded rest =>
                  cases alongside with
                  | yielded restToo =>
                      exact ⟨congrArg Except.ok (views.turned _), views.turn rfl⟩
          | ipcSendAndYield => exact ViewStep.alike_send views step alongside
          | ipcRecvAndYield => exact ViewStep.alike_receive views step alongside
      | resume | elsewhere => cases events
  | resume =>
      cases rightEvent with
      | resume => exact ViewStep.alike_resume views step alongside
      | call | elsewhere => cases events
  | elsewhere world machine =>
      cases rightEvent with
      | elsewhere otherWorld otherMachine =>
          cases step with
          | elsewhere rest =>
              cases alongside with
              | elsewhere restToo => exact ⟨rfl, views.withWorld events⟩
      | call | resume => cases events

/-! ## Steps of a kernel that a view shows -/

variable {cpu : Cpu Context Machine} {kernel : Kernel Party Context Machine}
  {view next : View Party}
  {event : Event Party PeerMachine} {result : Except SchedError Reply}

omit [DecidableEq Party] in
theorem View.Alike.at_rest_iff (alike : view.Alike (viewOf kernel)) (intact : Intact kernel) :
    AtRest kernel ↔ view.frame = .outside := by
  rw [intact.at_rest_iff, ← @Frame.unguarded_outside _ view.frame, alike.frame,
    Frame.unguarded_outside]

theorem ViewStep.performs {call : Call Party}
    (step : ViewStep build view (.call call : Event Party PeerMachine) result next)
    (alike : view.Alike (viewOf kernel)) (intact : Intact kernel) :
    AtRest kernel ∧ ∃ found reached, (perform cpu build call kernel).Returned found reached := by
  have worlds : view.world = kernel.world := alike.world
  rw [alike.at_rest_iff intact]
  cases call with
  | yieldNow =>
      cases step with
      | yielded rest =>
          refine ⟨rest, returned_of_no_fault fun reason stopped => ?_⟩
          exact yield_faults intact.displays intact.orderly stopped
  | ipcSendAndYield party epCap msg transfer =>
      cases step with
      | sent rest sends _ | delivered rest _ sends _ =>
          refine ⟨rest, returned_of_no_fault fun reason stopped => ?_⟩
          rcases send_faults intact.displays intact.orderly stopped with ⟨inner, faulted⟩
          rcases sends with ⟨last, came, _⟩
          rw [worlds, faulted] at came
          exact not_returned_fault _ _ _ came
  | ipcRecvAndYield party epCap =>
      cases step with
      | received rest receives _ | deadlocked rest receives _ | blocked rest _ receives _ =>
          refine ⟨rest, returned_of_no_fault fun reason stopped => ?_⟩
          rcases recv_faults intact.displays intact.orderly stopped with ⟨inner, faulted⟩
          rcases receives with ⟨last, came, _⟩
          rw [worlds, faulted] at came
          exact not_returned_fault _ _ _ came

theorem ViewStep.resumes
    (step : ViewStep build view (.resume : Event Party PeerMachine) result next)
    (alike : view.Alike (viewOf kernel)) (intact : Intact kernel) :
    ¬ AtRest kernel ∧ ∃ found reached, (resume cpu build kernel).Returned found reached := by
  have worlds : view.world = kernel.world := alike.world
  have faulty : ∀ reason, resume cpu build kernel = .fault reason →
      ∃ guard party epCap inner, view.frame = .inRecv guard party epCap ∧
        ipcRecv build epCap (seenBy view.world party) = .fault inner := by
    intro reason stopped
    rcases resume_faults intact.displays stopped with ⟨_, party, epCap, inner, here, faulted⟩
    have frame := alike.frame
    rw [here] at frame
    rcases Frame.in_recv_of_unguarded frame with ⟨guard, own⟩
    rw [← worlds] at faulted
    exact ⟨guard, party, epCap, inner, own, faulted⟩
  rw [alike.at_rest_iff intact]
  cases step with
  | backFromYield suspended | backFromSend suspended =>
      refine ⟨by simp [suspended], returned_of_no_fault fun reason stopped => ?_⟩
      rcases faulty reason stopped with ⟨_, _, _, _, here, _⟩
      cases suspended.symm.trans here
  | collected suspended receives _ | pendingAfterResume suspended receives =>
      refine ⟨by simp [suspended], returned_of_no_fault fun reason stopped => ?_⟩
      rcases faulty reason stopped with ⟨_, party, epCap, inner, here, faulted⟩
      cases suspended.symm.trans here
      rcases receives with ⟨last, came, _⟩
      rw [faulted] at came
      exact not_returned_fault _ _ _ came

/-- A step of the view is one of every kernel it shows, up to the interrupt states. -/
theorem ViewStep.carried (step : ViewStep build view event result next)
    (alike : view.Alike (viewOf kernel)) (intact : Intact kernel) :
    ∃ label reached, KernelStep cpu build kernel label reached ∧
      (⟨event, result⟩ : KernelLabel Party PeerMachine).Alike label ∧
      next.Alike (viewOf reached) ∧ Intact reached := by
  have found : ∃ label reached, KernelStep cpu build kernel label reached ∧
      event.Alike label.event := by
    cases event with
    | call call =>
        rcases @ViewStep.performs _ _ _ _ _ _ cpu _ _ _ _ _ step alike intact with
          ⟨rest, answer, reached, came⟩
        exact ⟨⟨.call call, answer⟩, reached, ⟨rest, came⟩, rfl⟩
    | resume =>
        rcases @ViewStep.resumes _ _ _ _ _ _ cpu _ _ _ _ step alike intact with
          ⟨suspended, answer, reached, came⟩
        exact ⟨⟨.resume, answer⟩, reached, ⟨suspended, came⟩, trivial⟩
    | elsewhere world machine =>
        cases step with
        | elsewhere rest =>
            have atRest := (alike.at_rest_iff intact).mpr rest
            exact ⟨⟨.elsewhere world kernel.machine, .ok .computed⟩, _, ⟨atRest, rfl, rfl⟩, rfl⟩
  rcases found with ⟨label, reached, taken, events⟩
  rcases taken.view_step intact with ⟨kept, viewed⟩
  rcases step.alike viewed alike events with ⟨results, views⟩
  exact ⟨label, reached, taken, ⟨events, results⟩, views, kept⟩

end Steps

/-! ## Whole runs -/

/-- Two kernels in lockstep. -/
structure Twins (left : Kernel Party Context Machine)
    (right : Kernel Party PeerContext PeerMachine) :
    Prop where
  alike : Kernel.Alike left right
  intact : Intact left
  intactBeside : Intact right

section Twins

variable {left after : Kernel Party Context Machine} {right : Kernel Party PeerContext PeerMachine}

theorem Twins.symm (twins : Twins left right) : Twins right left :=
  ⟨twins.alike.symm, twins.intactBeside, twins.intact⟩

theorem Twins.at_rest (twins : Twins left right) : AtRest left ↔ AtRest right := by
  rw [twins.intact.at_rest_iff, twins.alike.at_rest_iff twins.intactBeside]

variable [DecidableEq Party] {cpu : Cpu Context Machine} {peer : Cpu PeerContext PeerMachine}
  {build : Build}

theorem Twins.carried {label : KernelLabel Party Machine} (twins : Twins left right)
    (step : KernelStep cpu build left label after) :
    ∃ otherLabel reached, KernelStep peer build right otherLabel reached ∧
      label.Alike otherLabel ∧ Twins after reached := by
  rcases step.view_step twins.intact with ⟨kept, viewed⟩
  rcases viewed.carried twins.alike twins.intactBeside with
    ⟨otherLabel, reached, taken, labels, views, keptToo⟩
  exact ⟨otherLabel, reached, taken, labels, views, kept, keptToo⟩

theorem Twins.faults_too {call : Call Party} {reason : SchedFault} (twins : Twins left right)
    (rest : AtRest right) (stopped : perform cpu build call left = .fault reason) :
    ∃ reason, perform peer build call right = .fault reason := by
  by_contra fine
  have runs : ∀ reason, perform peer build call right ≠ .fault reason := by
    intro reason stops
    exact fine ⟨reason, stops⟩
  rcases returned_of_no_fault runs with ⟨result, final, came⟩
  have step : KernelStep peer build right ⟨.call call, result⟩ final := ⟨rest, came⟩
  rcases (step.view_step twins.intactBeside).2.performs twins.symm.alike twins.intact with
    ⟨_, found, other, returned⟩
  rw [stopped] at returned
  exact not_returned_fault _ _ _ returned

end Twins

section Boot

variable [DecidableEq Party] (cpu : Cpu Context Machine) (peer : Cpu PeerContext PeerMachine)
  (build : Build) (world : World Party) (machine : Machine) (peerMachine : PeerMachine)
  {registrations peerRegistrations : List Registration}

/-- A system that boots on two processors, wherever its tasks have their entries and their
stacks: for every run on the one there is a run on the other with the same calls, the same
results and the same tasks, objects, tables and suspended calls in every state; and a call
that panics there panics here. Both processors suspend a task that switches away: the fake of
the scheduler's tests, whose `context_switch` returns at once, is not one. -/
theorem runs_are_portable (anyone : registrations ≠ [])
    (registrable : Registrable (registrations.map Registration.handle))
    (same : peerRegistrations.map Registration.handle = registrations.map Registration.handle) :
    ∃ booted peerBooted, start cpu registrations (powerOn cpu world machine) = .ok () booted ∧
      start peer peerRegistrations (powerOn peer world peerMachine) = .ok () peerBooted ∧
      ∀ trace after, Run (KernelStep cpu build) booted trace after →
        ∃ peerTrace peerAfter, Run (KernelStep peer build) peerBooted peerTrace peerAfter ∧
          List.Forall₂ (Matching Kernel.Alike KernelLabel.Alike) trace peerTrace ∧
          Kernel.Alike after peerAfter ∧
          ∀ call, AtRest after → ((∃ reason, perform cpu build call after = .fault reason) ↔
            ∃ reason, perform peer build call peerAfter = .fault reason) := by
  have peerAnyone : peerRegistrations ≠ [] := by
    rintro rfl
    exact anyone (List.map_eq_nil_iff.mp same.symm)
  have peerRegistrable : Registrable (peerRegistrations.map Registration.handle) := by
    rw [same]
    exact registrable
  rcases boot_run cpu world machine anyone registrable with
    ⟨booted, first, rest, ran, handles, intact, shown⟩
  rcases boot_run peer world peerMachine peerAnyone peerRegistrable with
    ⟨peerBooted, peerFirst, peerRest, peerRan, peerHandles, peerIntact, peerShown⟩
  rw [same, handles] at peerHandles
  cases peerHandles
  refine ⟨booted, peerBooted, ran, peerRan, ?_⟩
  intro trace after run
  have twins : Twins booted peerBooted := by
    refine ⟨?_, intact, peerIntact⟩
    rw [Kernel.Alike, shown, peerShown]
    exact ⟨rfl, rfl, fun _ => rfl⟩
  rcases run_lockstep twins (fun _ _ _ _ twins step => Twins.carried twins step) run with
    ⟨peerTrace, peerAfter, peerRun, sofar, reached⟩
  refine ⟨peerTrace, peerAfter, peerRun, ?_, reached.alike, ?_⟩
  · exact sofar.imp fun _ _ matching =>
      ⟨matching.before.alike, matching.label, matching.after.alike⟩
  · intro call rest
    have peerRest := reached.at_rest.mp rest
    constructor
    · rintro ⟨reason, stopped⟩
      exact reached.faults_too peerRest stopped
    · rintro ⟨reason, stopped⟩
      exact reached.symm.faults_too rest stopped

end Boot

/-! ## A counter and the board -/

open Tyrne.Aarch64 (qemuVirtCpu)
open Tyrne.Board (neighbours afterReset)

theorem runs_are_portable_relay : ∃ peerBooted peerTrace peerAfter,
    start (qemuVirtCpu neighbours) [taskIn 0, taskIn 1, taskIn 2]
        (powerOn (qemuVirtCpu neighbours) sharedWorld afterReset) = .ok () peerBooted ∧
      Run (KernelStep (qemuVirtCpu neighbours) ⟨true⟩) peerBooted peerTrace peerAfter ∧
      List.Forall₂ (Matching Kernel.Alike KernelLabel.Alike) (played plainCpu ⟨true⟩ relay trio)
        peerTrace := by
  rcases @runs_are_portable _ _ _ _ _ _ plainCpu (qemuVirtCpu neighbours) ⟨true⟩ sharedWorld (0, 0)
    afterReset _ [taskIn 0, taskIn 1, taskIn 2] (by simp) trio_registrable rfl with
    ⟨reached, peerBooted, ran, peerRan, law⟩
  have booted : trio = reached := booted_with ran
  rw [← booted] at law
  have run : Run (BridgeStep plainCpu ⟨true⟩ id) trio
      (played plainCpu ⟨true⟩ relay trio) (playedTo plainCpu ⟨true⟩ relay trio) :=
    played_run (by decide +kernel)
  rcases law _ _ (run_weaken (fun _ _ _ step => step.1) run) with
    ⟨peerTrace, peerAfter, peerRun, matching, _⟩
  exact ⟨peerBooted, peerTrace, peerAfter, peerRan, peerRun, matching⟩

end Tyrne.Sched
