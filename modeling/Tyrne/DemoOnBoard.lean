import Tyrne.DemoCourse
import Tyrne.InterruptRun

/-!
# The demo on the board

The two-task demo together with the interrupts of the board. No task of the demo asks the
timer or the controller for anything, so nothing ends the first `wfi` of the idle task.
-/

namespace Tyrne.Demo

open Tyrne.Lib.Runs
open Tyrne.Cap
open Tyrne.Deadline (QemuVirtCpu)
open Tyrne.Gic (Gicv2 QemuVirtGic wordCount)
open Tyrne.Interrupts (State Action Frame InterruptTrace Origin Ready Sound)
open Tyrne.Sched
open Tyrne.KernelEntry

set_option autoImplicit false

structure OnBoard (Context Machine : Type) where
  demo : Running Context Machine
  board : State

/-- A step of the demo or of the board beside it. -/
inductive Moves (Machine : Type) where
  | demo (happening : Happening Machine)
  | board (event : Interrupts.Event)

/-- The lines below are software-generated interrupts. -/
def firstPpi : Nat := 16

/-- What devices and timers raise: no code of the repository writes `GICD_SGIR`. -/
def FromDevices (pending : Nat → Bool) : Prop := ∀ line, line < firstPpi → pending line = false

section System

variable {Context Machine : Type} (cpu : Cpu Context Machine) (timer : QemuVirtCpu)
  (build : Build) (published : Published) (nowNs : Machine → UInt64) (bootNs : UInt64)

/-- The demo is under way once the set-up is complete, and `wfi` comes back when the
controller signals an interrupt. No task calls the timer or the controller. -/
def OnBoardStep (before : OnBoard Context Machine) (moved : Moves Machine)
    (after : OnBoard Context Machine) : Prop :=
  match moved with
  | .demo happening =>
      DemoStep cpu build published nowNs bootNs before.demo happening after.demo ∧
        after.board = before.board ∧ before.board.program = [] ∧
        (happening = .wakes → ∃ line, before.board.presents line = true)
  | .board event =>
      Interrupts.Step timer before.board event after.board ∧ after.demo = before.demo ∧
        (∀ request, event ≠ .calls request) ∧
        ∀ pending, event = .lines pending → FromDevices pending

end System

/-- Every line of a device that `init` leaves as it was is off at reset. The
software-generated interrupts may be on, as a GICv2 may have them. -/
def OffAtReset (reset : Gicv2) : Prop :=
  ∀ line, firstPpi ≤ line → line < 32 ∨ 32 * wordCount reset.gicdTyper ≤ line →
    reset.enabled line = false

section Quiet

variable {timer : QemuVirtCpu} {gic : QemuVirtGic} {reset : Gicv2} {trace : InterruptTrace}
  {state : State}

theorem nothing_presented (off : OffAtReset reset) (ready : Ready gic reset trace state)
    (unasked : ∀ taken ∈ trace, ∀ request, taken.label ≠ .calls request)
    (devices : FromDevices state.pending) (line : Nat) : state.presents line = false := by
  by_contra presented
  rw [Bool.not_eq_false, State.presents] at presented
  simp only [Bool.and_eq_true] at presented
  have device : firstPpi ≤ line := by
    by_contra generated
    cases presented.1.1.2.symm.trans (devices line (Nat.lt_of_not_le generated))
  rcases ready.lines line presented.1.2 with ⟨taken, member, request, _, called, _⟩ | ⟨on, spared⟩
  · exact unasked taken member request called
  · cases on.symm.trans (off line device spared)

theorem performed_pending (state : State) (action : Action) :
    (state.perform action).pending = state.pending := by
  cases action with
  | line call =>
      simp only [State.perform]
      split
      · rfl
      · split <;> rfl
  | msrVbarEl1 | publishGic | register | msrDaifClr | msrDaif | msrCntvCval | msrCntvCtl => rfl

theorem handled_pending {frame : Frame} {outer : List Frame} {after : State}
    (handled : state.handle frame outer = some after) : after.pending = state.pending := by
  rw [State.handle] at handled
  split at handled <;> cases handled <;> rfl

theorem FromDevices.step {event : Interrupts.Event} {after : State}
    (devices : FromDevices state.pending) (step : Interrupts.Step timer state event after)
    (raised : ∀ pending, event = .lines pending → FromDevices pending) :
    FromDevices after.pending := by
  cases event with
  | lines pending =>
      cases step
      exact raised pending rfl
  | calls request =>
      rcases Interrupts.step_calls step with ⟨_, _, ⟨_, _, rfl⟩ | rfl⟩ <;> exact devices
  | acts =>
      rcases Interrupts.step_acts step with ⟨action, rest, _, _, rfl⟩
      rw [performed_pending]
      exact devices
  | taken line =>
      rcases Interrupts.step_taken step with ⟨_, _, rfl⟩
      rw [State.takeIrq]
      split <;> exact devices
  | reads raw =>
      rcases Interrupts.step_reads step with ⟨_, _, _, ⟨_, rfl⟩ | ⟨_, rfl⟩⟩ <;> exact devices
  | handles =>
      rcases Interrupts.step_handles step with ⟨_, _, _, handled⟩
      rw [handled_pending handled]
      exact devices

theorem ready_of_idle (sound : Sound gic reset trace state) (idle : state.program = []) :
    Ready gic reset trace state := by
  cases sound.stage with
  | entered _ _ _ left | installed _ _ _ _ left => cases idle.symm.trans left
  | initialising _ _ _ _ _ rest _ _ left => cases rest <;> cases idle.symm.trans left
  | ready ready => exact ready

end Quiet

section Runs

variable {Context Machine : Type} {cpu : Cpu Context Machine} {timer : QemuVirtCpu} {build : Build}
  {published : Published} {nowNs : Machine → UInt64} {bootNs : UInt64} {gic : QemuVirtGic}
  {reset : Gicv2} {pending : Nat → Bool} {cntvCval cntvCtl : UInt64}
  {start : Running Context Machine} {after : OnBoard Context Machine}
  {trace : List (Transition (OnBoard Context Machine) (Moves Machine))}

def demoHappenings (trace : List (Transition (OnBoard Context Machine) (Moves Machine))) :
    List (Happening Machine) :=
  trace.filterMap fun taken =>
    match taken.label with
    | .demo happening => some happening
    | .board _ => none

theorem demo_happenings_append
    (front back : List (Transition (OnBoard Context Machine) (Moves Machine))) :
    demoHappenings (front ++ back) = demoHappenings front ++ demoHappenings back :=
  List.filterMap_append

theorem parts_of_run (off : OffAtReset reset) (devices : FromDevices pending)
    (run : Run (OnBoardStep cpu timer build published nowNs bootNs)
      ⟨start, .handedOver gic reset pending cntvCval cntvCtl⟩ trace after) :
    (∃ demoTrace, Run (DemoStep cpu build published nowNs bootNs) start demoTrace after.demo ∧
      labels demoTrace = demoHappenings trace ∧ ∀ taken ∈ demoTrace, taken.label ≠ .wakes) ∧
      ∃ boardTrace, Run (Interrupts.Step timer) (.handedOver gic reset pending cntvCval cntvCtl)
        boardTrace after.board ∧ FromDevices after.board.pending ∧
        ∀ taken ∈ boardTrace, ∀ request, taken.label ≠ .calls request := by
  induction run with
  | nil =>
      exact ⟨⟨[], .nil, rfl, fun _ member => nomatch member⟩, [], .nil, devices,
        fun _ member => nomatch member⟩
  | @snoc trace middle after moved earlier step ih =>
      rcases ih with
        ⟨⟨demoTrace, demoRun, same, asleep⟩, boardTrace, boardRun, devices, unasked⟩
      rw [demo_happenings_append]
      cases moved with
      | demo happening =>
          rcases step with ⟨stepped, kept, idle, signalled⟩
          rw [kept]
          refine ⟨⟨_, .snoc demoRun stepped, ?_, ?_⟩, boardTrace, boardRun, devices, unasked⟩
          · rw [labels_snoc, same]
            rfl
          · intro taken member
            rcases List.mem_append.mp member with before | now
            · exact asleep taken before
            · rw [List.mem_singleton.mp now]
              rintro woken
              obtain ⟨line, presented⟩ := signalled woken
              have ready := ready_of_idle (Interrupts.sound_of_run boardRun) idle
              cases presented.symm.trans (nothing_presented off ready unasked devices line)
      | board event =>
          rcases step with ⟨stepped, kept, noCall, raised⟩
          rw [kept]
          refine ⟨⟨demoTrace, demoRun, ?_, asleep⟩, _, .snoc boardRun stepped,
            devices.step stepped raised, ?_⟩
          · rw [same]
            exact (List.append_nil _).symm
          · intro taken member
            rcases List.mem_append.mp member with before | now
            · exact unasked taken before
            · rw [List.mem_singleton.mp now]
              exact noCall

/-- On a board whose devices have their lines off at reset the demo never comes to its end,
whatever they raise: no interrupt is taken, the idle task's first `wfi` does not come back, two
calls of the bridge are made at most, and nothing is printed after task A's announcement. -/
theorem demo_never_ends (cpu : Cpu Context Machine) (timer : QemuVirtCpu) (build : Build)
    (nowNs : Machine → UInt64) (bootNs : UInt64) (addresses : Addresses) (machine : Machine) :
    ∃ published booted, kernelEntry cpu build addresses machine = some (published, booted) ∧
      ∀ gic reset pending cntvCval cntvCtl, OffAtReset reset → FromDevices pending →
        ∀ trace after, Run (OnBoardStep cpu timer build published nowNs bootNs)
          ⟨.boot booted, .handedOver gic reset pending cntvCval cntvCtl⟩ trace after →
        after.demo.console <+: [.taskBWaiting, .taskASending] ∧
        after.demo.points .a = .aSends ∧ after.demo.points .b = .bReceives ∧
        (∀ taken ∈ trace, taken.label ≠ .demo .wakes) ∧
        (∀ taken ∈ trace, ∀ line, taken.label ≠ .board (.taken line)) ∧
        (demoHappenings trace).filterMap Happening.kind? <+: [.calls, .calls] := by
  rcases Fits.start cpu build addresses machine with ⟨booted, ran, fits⟩
  refine ⟨prepared, booted, ran, ?_⟩
  intro gic reset pending cntvCval cntvCtl off devices trace after run
  rcases parts_of_run off devices run with ⟨⟨demoTrace, demoRun, same, asleep⟩, _⟩
  rcases asleep_phase fits demoRun asleep with ⟨phase, there, so, early⟩
  rcases there.console with ⟨elapsed, shown⟩
  have few : kinds demoTrace <+: [.calls, .calls] ∧
      after.demo.console <+: [.taskBWaiting, .taskASending] ∧
      after.demo.points .a = .aSends ∧ after.demo.points .b = .bReceives := by
    rw [so, shown, there.points, there.points]
    rcases early with rfl | rfl | rfl <;> exact ⟨⟨_, rfl⟩, ⟨_, rfl⟩, rfl, rfl⟩
  refine ⟨few.2.1, few.2.2.1, few.2.2.2, ?_, ?_, ?_⟩
  · intro taken member wakes
    have listed : Happening.wakes ∈ labels demoTrace := by
      rw [same]
      exact List.mem_filterMap.mpr ⟨taken, member, by rw [wakes]⟩
    rcases List.mem_map.mp listed with ⟨woken, inside, label⟩
    exact asleep woken inside label
  · intro taken member line strikes
    rcases run_member run member with ⟨front, earlier, step, _⟩
    rw [strikes] at step
    rcases (parts_of_run off devices earlier).2 with ⟨path, boardRun, devices, unasked⟩
    rcases Interrupts.step_taken step.1 with ⟨unmasked, presented, _⟩
    have ready := ((Interrupts.sound_of_run boardRun).unmasked unmasked).1
    cases presented.symm.trans (nothing_presented off ready unasked devices line)
  · rw [← same]
    exact few.1

theorem run_beside (demo : Running Context Machine) {board reached : State}
    {path : List Interrupts.Event}
    (followed : follow (Interrupts.next timer) board path = some reached)
    (uncalled : ∀ event ∈ path, ∀ request, event ≠ .calls request)
    (raised : ∀ event ∈ path, ∀ pending, event = .lines pending → FromDevices pending) :
    ∃ trace, Run (OnBoardStep cpu timer build published nowNs bootNs) ⟨demo, board⟩ trace
      ⟨demo, reached⟩ ∧ demoHappenings trace = [] := by
  induction path generalizing board with
  | nil =>
      cases followed
      exact ⟨[], .nil, rfl⟩
  | cons event rest ih =>
      rcases Option.bind_eq_some_iff.mp followed with ⟨middle, step, remaining⟩
      obtain ⟨trace, run, silent⟩ := ih remaining
        (fun later member => uncalled later (List.mem_cons_of_mem event member))
        (fun later member => raised later (List.mem_cons_of_mem event member))
      have here := List.mem_cons_self (a := event) (l := rest)
      have first : OnBoardStep cpu timer build published nowNs bootNs ⟨demo, board⟩ (.board event)
          ⟨demo, middle⟩ := ⟨step, rfl, uncalled event here, raised event here⟩
      refine ⟨_, run_append (run_single first) run, ?_⟩
      rw [demo_happenings_append, silent]
      rfl

end Runs

open Tyrne.Interrupts (oneWord settingUp)

def generatedOn : Gicv2 := { oneWord with enabled := fun line => line < firstPpi }

def deviceRaises : List Interrupts.Event := settingUp ++ [.lines fun line => line == 33]

def someAddresses : Addresses := ⟨fun _ => 0, fun _ => 0⟩

def generatedAtReset : State := .handedOver default generatedOn (fun _ => false) 0 0

theorem generated_program : generatedAtReset = { generatedAtReset with
    program := [.msrVbarEl1, .publishGic default] ++
      ((Gic.initWrites 2).map .register ++ [.msrDaifClr 0x2]) } := by
  rw [generatedAtReset, State.handedOver, Interrupts.hardwareSetup, Interrupts.init_log]
  rfl

/-- A device raises a line, and the demo comes to the `wfi`. -/
theorem demo_never_ends_raised : ∃ published booted trace after,
    kernelEntry plainCpu ⟨true⟩ someAddresses (0, 0) = some (published, booted) ∧
      Run (OnBoardStep plainCpu OneShot.virtCpu ⟨true⟩ published Prod.fst 0)
        ⟨.boot booted, generatedAtReset⟩ trace after ∧
      after.board.pending 33 = true ∧
      (demoHappenings trace).filterMap Happening.kind? = [.calls, .calls] ∧
      after.demo.points .b = .bReceives ∧ ∀ taken ∈ trace, taken.label ≠ .demo .wakes := by
  rcases demo_never_ends plainCpu OneShot.virtCpu ⟨true⟩ Prod.fst 0 someAddresses (0, 0) with
    ⟨published, booted, entered, law⟩
  rcases Fits.start plainCpu ⟨true⟩ someAddresses (0, 0) with ⟨other, enteredToo, fits⟩
  cases entered.symm.trans enteredToo
  have ends : (follow (Interrupts.next OneShot.virtCpu) generatedAtReset deviceRaises).map
      (fun state => (state.program.length, state.pending 33)) = some (0, true) := by
    rw [generated_program]
    decide +kernel
  rcases Option.map_eq_some_iff.mp ends with ⟨board, followed, shown⟩
  simp only [Prod.mk.injEq, List.length_eq_zero_iff] at shown
  rcases shown with ⟨idle, raised⟩
  have off : OffAtReset generatedOn := by
    intro line device _
    exact decide_eq_false (Nat.not_lt.mpr device)
  have uncalled : ∀ event ∈ deviceRaises, ∀ request, event ≠ .calls request := by
    simp [deviceRaises, settingUp]
  have fromDevices : ∀ event ∈ deviceRaises, ∀ pending, event = .lines pending →
      FromDevices pending := by
    intro event member pending lines line generated
    subst lines
    have only : pending = fun line => line == 33 := by
      simpa [deviceRaises, settingUp] using member
    rw [only, beq_eq_false_iff_ne]
    rintro rfl
    exact absurd generated (by decide)
  rcases @run_beside _ _ plainCpu OneShot.virtCpu ⟨true⟩ prepared Prod.fst 0 (.boot booted) _ _ _
    followed uncalled fromDevices with ⟨early, run, silent⟩
  rcases @Fits.advances _ _ plainCpu ⟨true⟩ Prod.fst 0 _ _ fits _ _ rfl with
    ⟨first, middle, calls, step, waits⟩
  rcases @Fits.advances _ _ plainCpu ⟨true⟩ Prod.fst 0 _ _ waits _ _ rfl with
    ⟨second, after, callsToo, stepToo, sent⟩
  have whole : Run (OnBoardStep plainCpu OneShot.virtCpu ⟨true⟩ prepared Prod.fst 0)
      ⟨.boot booted, generatedAtReset⟩
      (early ++ [⟨⟨.boot booted, board⟩, .demo first, ⟨middle, board⟩⟩] ++
        [⟨⟨middle, board⟩, .demo second, ⟨after, board⟩⟩]) ⟨after, board⟩ := by
    refine .snoc (.snoc run ⟨step, rfl, idle, ?_⟩) ⟨stepToo, rfl, idle, ?_⟩
    · rintro rfl
      cases calls
    · rintro rfl
      cases callsToo
  rcases law _ _ _ _ _ off (fun _ _ => rfl) _ _ whole with ⟨_, _, waiting, asleep, _⟩
  refine ⟨prepared, booted, _, _, entered, whole, raised, ?_, waiting, asleep⟩
  rw [demo_happenings_append, demo_happenings_append, silent]
  simp [demoHappenings, calls, callsToo]

end Tyrne.Demo
