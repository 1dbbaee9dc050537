import Tyrne.Channel
import Tyrne.Demo
import Tyrne.Portable
import Tyrne.Returns

/-!
# The course of the demo

Interrupts aside, the demo has one course: each phase leads to the next one only. The idle
task stands in line before task B is woken, so it gets control once, and until its `wfi`
comes back nothing goes on.
-/

namespace Tyrne.Demo

open Tyrne.Lib.Effect
open Tyrne.Lib.Runs
open Tyrne.Cap
open Tyrne.Ipc
open Tyrne.System (World)
open Tyrne.Sched
open Tyrne.KernelEntry

set_option autoImplicit false

/-- What has happened last, interrupts aside. -/
inductive Phase where
  | started
  | bWaits
  | aSent
  | woken
  | idleYielded
  | bReceived
  | bReplied
  | bYielded
  | aResumed
  | finished
  deriving DecidableEq, Repr

namespace Phase

def bootRoster : Roster := startingRoster (prepared.handles .b)
  [prepared.handles .a, prepared.handles .idle]

def bWaitingRoster : Roster := bootRoster.block prepared.epHandle
def idleRoster : Roster := (bWaitingRoster.wake prepared.epHandle).rotate
def bAgainRoster : Roster := idleRoster.rotate
def aAgainRoster : Roster := bAgainRoster.rotate

def roster : Phase → Roster
  | .started => bootRoster
  | .bWaits => bWaitingRoster
  | .aSent | .woken => idleRoster
  | .idleYielded | .bReceived | .bReplied => bAgainRoster
  | .bYielded | .aResumed | .finished => aAgainRoster

def current : Phase → TaskName
  | .started | .idleYielded | .bReceived | .bReplied => .b
  | .bWaits | .bYielded | .aResumed | .finished => .a
  | .aSent | .woken => .idle

theorem roster_current (phase : Phase) :
    phase.roster.current = prepared.handles phase.current := by
  cases phase <;> rfl

def endpoint : Phase → EndpointState
  | .started | .bReceived | .finished => .idle
  | .bWaits => .recvWaiting
  | .aSent | .woken | .idleYielded => .recvComplete messageOfA none
  | .bReplied | .bYielded | .aResumed => .sendPending replyOfB none

def frame : Phase → TaskName → Frame Party
  | .bWaits, .b | .aSent, .b | .woken, .b | .idleYielded, .b =>
      .inRecv 0 .b (prepared.epCaps .b)
  | .bYielded, .b | .aResumed, .b | .finished, .b => .inYield 0
  | .aSent, .a | .woken, .a | .idleYielded, .a | .bReceived, .a | .bReplied, .a | .bYielded, .a =>
      .inSend 0 .delivered
  | .idleYielded, .idle | .bReceived, .idle | .bReplied, .idle | .bYielded, .idle
  | .aResumed, .idle | .finished, .idle => .inYield 0
  | _, _ => .outside

def point : Phase → TaskName → Point
  | .bReceived, .b => .bReplies
  | .bReplied, .b | .bYielded, .b | .aResumed, .b | .finished, .b => .bYields
  | _, .b => .bReceives
  | .aResumed, .a => .aReceives
  | .finished, .a => .aSpins
  | _, .a => .aSends
  | .started, .idle | .bWaits, .idle | .aSent, .idle => .idleWaits
  | _, .idle => .idleYields

def console (elapsed : UInt64) : Phase → List Line
  | .started => []
  | .bWaits => [.taskBWaiting]
  | .aSent | .woken | .idleYielded => [.taskBWaiting, .taskASending]
  | .bReceived | .bReplied | .bYielded | .aResumed =>
      [.taskBWaiting, .taskASending, .taskBReceived 0xAAAA]
  | .finished =>
      [.taskBWaiting, .taskASending, .taskBReceived 0xAAAA, .taskAReceived 0xBBBB,
        .allTasksComplete, .elapsed elapsed]

end Phase

/-- The system is in this phase. -/
structure Fits {Context Machine : Type} (phase : Phase) (running : Running Context Machine) :
    Prop where
  intact : Intact running.kernel
  roster : rosterOf running.kernel.sched = phase.roster
  wired : Wired running.kernel.world prepared.epHandle prepared.epCaps phase.endpoint
  frames : ∀ name, Frame.unguarded (running.kernel.frames (slotOf (prepared.handles name))) =
    phase.frame name
  points : ∀ name, running.points name = phase.point name
  console : ∃ elapsed, running.console = phase.console elapsed

section Course

variable {Context Machine : Type} {cpu : Cpu Context Machine} {build : Build}
  {nowNs : Machine → UInt64} {bootNs : UInt64} {running after : Running Context Machine}
  {kernel : Kernel Party Context Machine} {phase : Phase} {name : TaskName}
  {result : Except SchedError Reply}

theorem Fits.control (fits : Fits phase running) :
    InControl prepared running name ↔ name = phase.current := by
  have current : running.kernel.sched.current = some (prepared.handles phase.current) := by
    rw [fits.intact.shows.current, fits.roster, phase.roster_current]
  rw [InControl, current]
  cases name <;> cases phase.current <;> decide

theorem Fits.frame (fits : Fits phase running) :
    Frame.unguarded (viewOf running.kernel).frame = phase.frame phase.current := by
  have here : (viewOf running.kernel).frame =
      running.kernel.frames (slotOf (prepared.handles phase.current)) := by
    rw [← phase.roster_current, ← fits.roster]
    rfl
  rw [here, fits.frames]

theorem Fits.at_rest (fits : Fits phase running) :
    AtRest running.kernel ↔ phase.frame phase.current = .outside := by
  rw [fits.intact.at_rest_iff, ← fits.frame, Frame.unguarded_outside]

theorem Fits.start (cpu : Cpu Context Machine) (build : Build) (addresses : Addresses)
    (machine : Machine) :
    ∃ booted, kernelEntry cpu build addresses machine = some (prepared, booted) ∧
      Fits .started (Running.boot booted) := by
  rcases kernel_entry_boots cpu build addresses machine with ⟨booted, ran, intact, shown⟩
  refine ⟨booted, ran, intact, congrArg View.roster shown, ?_, ?_, ?_, 0, rfl⟩
  · have world : booted.world = prepared.world := congrArg View.world shown
    have steady := steady_of_fresh prepared_is.fresh
    refine ⟨?_, ?_, ?_, ?_, ?_⟩
    all_goals simp only [Running.boot]
    all_goals rw [world]
    · exact steady
    · exact prepared_is.live
    · exact prepared_is.sends
    · exact prepared_is.receives
    · exact states_of_fresh prepared_is.fresh _
  · intro name
    have frames : booted.frames = fun _ => .outside := congrArg View.frames shown
    simp only [Running.boot]
    rw [frames]
    cases name <;> rfl
  · intro name
    cases name <;> rfl

theorem Fits.interrupted (fits : Fits phase running) (machine : Machine) :
    Fits phase { running with kernel := { running.kernel with machine := machine } } where
  intact := ⟨fits.intact.shows, fits.intact.orderly⟩
  roster := fits.roster
  wired := fits.wired
  frames := fits.frames
  points := fits.points
  console := fits.console

theorem slots_apart {left right : TaskName} (different : left ≠ right) :
    slotOf (prepared.handles left) ≠ slotOf (prepared.handles right) := by
  revert different
  cases left <;> cases right <;> decide

theorem Fits.leaves {target : Phase} {suspended : Frame Party} (fits : Fits phase running)
    (intact : Intact kernel) (roster : rosterOf kernel.sched = target.roster)
    (wired : Wired kernel.world prepared.epHandle prepared.epCaps target.endpoint)
    (frames : kernel.frames = Function.update running.kernel.frames
      (slotOf (prepared.handles phase.current)) suspended)
    (frame : ∀ name, target.frame name =
      if name = phase.current then Frame.unguarded suspended else phase.frame name)
    (point : ∀ name, target.point name = phase.point name)
    (console : ∀ elapsed, target.console elapsed =
      phase.console elapsed ++ (phase.point phase.current).announces) :
    Fits target ((running.announce phase.current).settle nowNs bootNs phase.current
      (.ok .switched) kernel) := by
  rw [Running.settle, if_pos rfl]
  refine ⟨intact, roster, wired, ?_, ?_, ?_⟩
  · intro name
    rw [frames, frame]
    by_cases same : name = phase.current
    · rw [same, Function.update_self, if_pos rfl]
    · rw [Function.update_of_ne (slots_apart same), if_neg same]
      exact fits.frames name
  · intro name
    rw [point]
    exact fits.points name
  · rcases fits.console with ⟨elapsed, printed⟩
    refine ⟨elapsed, ?_⟩
    simp only [Running.announce]
    rw [console, printed, fits.points]

theorem Fits.comes_back {target : Phase} (fits : Fits phase running) (intact : Intact kernel)
    (roster : rosterOf kernel.sched = target.roster)
    (wired : Wired kernel.world prepared.epHandle prepared.epCaps target.endpoint)
    (frames : ∀ name, Frame.unguarded (kernel.frames (slotOf (prepared.handles name))) =
      target.frame name)
    (back : result ≠ .ok .switched)
    (point : ∀ elapsed name, target.point name = if name = phase.current then
      ((phase.point phase.current).returned elapsed result).1 else phase.point name)
    (console : ∀ old elapsed, target.console elapsed =
      phase.console old ++ ((phase.point phase.current).returned elapsed result).2) :
    Fits target (running.settle nowNs bootNs phase.current result kernel) := by
  rw [Running.settle, if_neg back]
  refine ⟨intact, roster, wired, frames, ?_, ?_⟩
  · intro name
    dsimp only
    rw [fits.points, point (elapsedNs nowNs bootNs kernel.machine)]
    by_cases same : name = phase.current
    · rw [same, Function.update_self, if_pos rfl]
    · rw [Function.update_of_ne same, if_neg same]
      exact fits.points name
  · rcases fits.console with ⟨old, printed⟩
    refine ⟨elapsedNs nowNs bootNs kernel.machine, ?_⟩
    dsimp only
    rw [console old, printed, fits.points]

theorem Fits.frames_back {target : Phase} (fits : Fits phase running)
    (frames : kernel.frames = Function.update running.kernel.frames
      (slotOf (prepared.handles phase.current)) .outside)
    (frame : ∀ name, target.frame name =
      if name = phase.current then .outside else phase.frame name) (name : TaskName) :
    Frame.unguarded (kernel.frames (slotOf (prepared.handles name))) = target.frame name := by
  rw [frames, frame]
  by_cases same : name = phase.current
  · rw [same, Function.update_self, if_pos rfl]
    rfl
  · rw [Function.update_of_ne (slots_apart same), if_neg same]
    exact fits.frames name

theorem Fits.called (fits : Fits phase running) (rest : AtRest running.kernel) {call : Call Party}
    (performed : (perform cpu build call running.kernel).Returned result kernel) :
    Intact kernel ∧ @ViewStep Party Machine _ build (viewOf running.kernel) (.call call) result
      (viewOf kernel) := by
  have step : KernelStep cpu build running.kernel ⟨.call call, result⟩ kernel := ⟨rest, performed⟩
  exact step.view_step fits.intact

theorem Fits.resumed (fits : Fits phase running) (suspended : ¬ AtRest running.kernel)
    (resumed : (resume cpu build running.kernel).Returned result kernel) :
    Intact kernel ∧ @ViewStep Party Machine _ build (viewOf running.kernel) .resume result
      (viewOf kernel) := by
  have step : KernelStep cpu build running.kernel ⟨.resume, result⟩ kernel :=
    ⟨suspended, resumed⟩
  exact step.view_step fits.intact

/-! ## Steps and phases -/

inductive Kind where
  | calls
  | resumes
  | wakes
  deriving DecidableEq, Repr

def Happening.kind? {Machine : Type} : Happening Machine → Option Kind
  | .calls => some .calls
  | .resumes => some .resumes
  | .wakes => some .wakes
  | .interrupted _ => none

namespace Phase

/-- What happens next, and what comes of it. -/
def next? : Phase → Option (Kind × Phase)
  | .started => some (.calls, .bWaits)
  | .bWaits => some (.calls, .aSent)
  | .aSent => some (.wakes, .woken)
  | .woken => some (.calls, .idleYielded)
  | .idleYielded => some (.resumes, .bReceived)
  | .bReceived => some (.calls, .bReplied)
  | .bReplied => some (.calls, .bYielded)
  | .bYielded => some (.resumes, .aResumed)
  | .aResumed => some (.calls, .finished)
  | .finished => none

theorem calls_next {phase target : Phase} (leads : phase.next? = some (.calls, target)) :
    phase.frame phase.current = .outside ∧
      ∃ call, (phase.point phase.current).call? prepared.epCaps = some call := by
  cases phase <;> cases leads <;> exact ⟨rfl, _, rfl⟩

theorem resumes_next {phase target : Phase} (leads : phase.next? = some (.resumes, target)) :
    phase.frame phase.current ≠ .outside := by
  cases phase <;> cases leads <;> exact fun outside => nomatch outside

theorem wakes_next {phase target : Phase} (leads : phase.next? = some (.wakes, target)) :
    phase.frame phase.current = .outside ∧ phase.current = .idle ∧
      phase.point .idle = .idleWaits := by
  cases phase <;> cases leads
  exact ⟨rfl, rfl, rfl⟩

end Phase

theorem Fits.view_roster (fits : Fits phase running) :
    (viewOf running.kernel).roster = phase.roster := fits.roster

theorem Fits.current_slot (fits : Fits phase running) :
    slotOf (viewOf running.kernel).roster.current = slotOf (prepared.handles phase.current) := by
  rw [fits.view_roster, phase.roster_current]

theorem Fits.yields (fits : Fits phase running)
    (step : @ViewStep Party Machine _ build (viewOf running.kernel) (.call .yieldNow) result
      (viewOf kernel))
    (others : phase.roster.ready ≠ []) :
    result = .ok .switched ∧ rosterOf kernel.sched = phase.roster.rotate ∧
      Wired kernel.world prepared.epHandle prepared.epCaps phase.endpoint ∧
      ∃ guard, kernel.frames = Function.update running.kernel.frames
        (slotOf (prepared.handles phase.current)) (.inYield guard) := by
  rw [← fits.view_roster] at others
  rcases yield_switches step others with ⟨switched, roster, world, guard, frames⟩
  rw [fits.view_roster] at roster
  rw [fits.current_slot] at frames
  have wired := fits.wired
  rw [← show kernel.world = running.kernel.world from world] at wired
  exact ⟨switched, roster, wired, guard, frames⟩

theorem Fits.calls (fits : Fits phase running) (control : InControl prepared running name)
    (rest : AtRest running.kernel) {call : Call Party}
    (next : (running.points name).call? prepared.epCaps = some call)
    (performed : (perform cpu build call running.kernel).Returned result kernel) :
    ∃ target, phase.next? = some (.calls, target) ∧
      Fits target ((running.announce name).settle nowNs bootNs name result kernel) := by
  rw [fits.control] at control
  subst control
  rw [fits.points] at next
  have outside := fits.at_rest.mp rest
  rcases fits.called rest performed with ⟨intact, step⟩
  have silent : (phase.point phase.current).announces = [] →
      running.announce phase.current = running := by
    intro nothing
    rw [Running.announce, fits.points, nothing, List.append_nil]
  cases phase with
  | started =>
      cases next
      have others : (viewOf running.kernel).roster.ready ≠ [] := by
        rw [fits.view_roster]
        decide
      rcases recv_switches fits.wired step others with ⟨rfl, roster, wired, guard, frames⟩
      rw [fits.view_roster] at roster
      rw [fits.current_slot] at frames
      exact ⟨.bWaits, rfl, fits.leaves intact roster wired frames
        (fun name => by cases name <;> rfl) (fun name => by cases name <;> rfl) (fun _ => rfl)⟩
  | bWaits =>
      cases next
      have others : ((viewOf running.kernel).roster.wake prepared.epHandle).ready ≠ [] := by
        rw [fits.view_roster]
        decide
      rcases send_switches fits.wired step others with ⟨rfl, roster, wired, guard, frames⟩
      rw [fits.view_roster] at roster
      rw [fits.current_slot] at frames
      exact ⟨.aSent, rfl, fits.leaves intact roster wired frames
        (fun name => by cases name <;> rfl) (fun name => by cases name <;> rfl) (fun _ => rfl)⟩
  | woken =>
      cases next
      rcases fits.yields step (by decide) with ⟨rfl, roster, wired, guard, frames⟩
      exact ⟨.idleYielded, rfl, fits.leaves intact roster wired frames
        (fun name => by cases name <;> rfl) (fun name => by cases name <;> rfl) (fun _ => rfl)⟩
  | bReceived =>
      cases next
      rcases send_returns fits.wired step with ⟨rfl, roster, wired, frames⟩
      rw [fits.view_roster] at roster
      rw [silent rfl]
      have same : kernel.frames = running.kernel.frames := frames
      refine ⟨.bReplied, rfl, fits.comes_back intact roster wired ?_ (by simp)
        (fun _ name => by cases name <;> rfl) (fun _ _ => rfl)⟩
      intro name
      rw [same, fits.frames]
      cases name <;> rfl
  | bReplied =>
      cases next
      rcases fits.yields step (by decide) with ⟨rfl, roster, wired, guard, frames⟩
      exact ⟨.bYielded, rfl, fits.leaves intact roster wired frames
        (fun name => by cases name <;> rfl) (fun name => by cases name <;> rfl) (fun _ => rfl)⟩
  | aResumed =>
      cases next
      rcases recv_returns fits.wired rfl step with ⟨rfl, roster, wired, frames⟩
      rw [fits.view_roster] at roster
      rw [silent rfl]
      have same : kernel.frames = running.kernel.frames := frames
      refine ⟨.finished, rfl, fits.comes_back intact roster wired ?_ (by simp)
        (fun _ name => by cases name <;> rfl) (fun _ _ => rfl)⟩
      intro name
      rw [same, fits.frames]
      cases name <;> rfl
  | idleYielded | bYielded => cases outside
  | aSent | finished => cases next

theorem Fits.resumes (fits : Fits phase running) (control : InControl prepared running name)
    (suspended : ¬ AtRest running.kernel)
    (resumed : (resume cpu build running.kernel).Returned result kernel) :
    ∃ target, phase.next? = some (.resumes, target) ∧
      Fits target (running.settle nowNs bootNs name result kernel) := by
  rw [fits.control] at control
  subst control
  rcases fits.resumed suspended resumed with ⟨intact, step⟩
  rw [fits.at_rest] at suspended
  have frame := fits.frame
  cases phase with
  | idleYielded =>
      rcases Frame.in_recv_of_unguarded frame with ⟨guard, inRecv⟩
      rcases collect_returns fits.wired rfl inRecv step with ⟨rfl, roster, wired, frames⟩
      rw [fits.view_roster] at roster
      rw [fits.current_slot] at frames
      exact ⟨.bReceived, rfl, fits.comes_back intact roster wired
        (fits.frames_back frames fun name => by cases name <;> rfl) (by simp)
        (fun _ name => by cases name <;> rfl) (fun _ _ => rfl)⟩
  | bYielded =>
      rcases Frame.in_send_of_unguarded frame with ⟨guard, inSend⟩
      rcases sent_returns inSend step with ⟨rfl, back⟩
      have roster : rosterOf kernel.sched = Phase.aAgainRoster :=
        (congrArg View.roster back).trans fits.view_roster
      have frames : kernel.frames = Function.update running.kernel.frames
          (slotOf (viewOf running.kernel).roster.current) .outside := congrArg View.frames back
      rw [fits.current_slot] at frames
      have wired := fits.wired
      rw [← show kernel.world = running.kernel.world from congrArg View.world back] at wired
      exact ⟨.aResumed, rfl, fits.comes_back intact roster wired
        (fits.frames_back frames fun name => by cases name <;> rfl) (by simp)
        (fun _ name => by cases name <;> rfl) (fun _ _ => rfl)⟩
  | started | bWaits | aSent | woken | bReceived | bReplied | aResumed | finished =>
      exact absurd rfl suspended

theorem Fits.wakes (fits : Fits phase running) (control : InControl prepared running .idle)
    (waits : running.points .idle = .idleWaits) :
    phase.next? = some (.wakes, .woken) ∧
      Fits .woken
        { running with points := Function.update running.points .idle .idleYields } := by
  rw [fits.control] at control
  rw [fits.points] at waits
  cases phase with
  | aSent =>
      refine ⟨rfl, fits.intact, fits.roster, fits.wired, ?_, ?_, fits.console⟩
      · intro name
        have same : Phase.aSent.frame name = Phase.woken.frame name := by cases name <;> rfl
        rw [← same]
        exact fits.frames name
      · intro name
        cases name with
        | idle => rfl
        | a | b => exact fits.points _
  | started | bWaits | idleYielded | bReceived | bReplied | bYielded | aResumed | finished =>
      cases control
  | woken => cases waits

theorem Fits.step {happening : Happening Machine} (fits : Fits phase running)
    (step : DemoStep cpu build prepared nowNs bootNs running happening after) :
    (happening.kind? = none ∧ Fits phase after) ∨
      ∃ kind target, happening.kind? = some kind ∧ phase.next? = some (kind, target) ∧
        Fits target after := by
  cases step with
  | calls control rest next performed =>
      rcases fits.calls control rest next performed with ⟨target, leads, reached⟩
      exact .inr ⟨_, target, rfl, leads, reached⟩
  | resumes control suspended resumed =>
      rcases fits.resumes control suspended resumed with ⟨target, leads, reached⟩
      exact .inr ⟨_, target, rfl, leads, reached⟩
  | wakes control rest waits =>
      rcases fits.wakes control waits with ⟨leads, reached⟩
      exact .inr ⟨_, .woken, rfl, leads, reached⟩
  | interrupted rest => exact .inl ⟨rfl, fits.interrupted _⟩

theorem Fits.goes_on (fits : Fits phase running) {kind : Kind} {target : Phase}
    (leads : phase.next? = some (kind, target)) :
    ∃ happening after, happening.kind? = some kind ∧
      DemoStep cpu build prepared nowNs bootNs running happening after := by
  have healthy : Healthy running.kernel := ⟨fits.intact, fits.wired.steady.sound⟩
  have control : InControl prepared running phase.current := fits.control.mpr rfl
  cases kind with
  | calls =>
      rcases Phase.calls_next leads with ⟨rest, call, next⟩
      rcases @Healthy.perform_returns _ _ _ cpu build _ _ healthy call with ⟨result, kernel, performed⟩
      rw [← fits.points] at next
      exact ⟨.calls, _, rfl, .calls control (fits.at_rest.mpr rest) next performed⟩
  | resumes =>
      rcases @Healthy.resume_returns _ _ _ cpu build _ _ healthy with ⟨result, kernel, resumed⟩
      have suspended : ¬ AtRest running.kernel := fun rest =>
        Phase.resumes_next leads (fits.at_rest.mp rest)
      exact ⟨.resumes, _, rfl, .resumes control suspended resumed⟩
  | wakes =>
      rcases Phase.wakes_next leads with ⟨rest, idle, waits⟩
      rw [idle] at control
      exact ⟨.wakes, _, rfl, .wakes control (fits.at_rest.mpr rest) (by rw [fits.points, waits])⟩

theorem Fits.advances (fits : Fits phase running) {kind : Kind} {target : Phase}
    (leads : phase.next? = some (kind, target)) :
    ∃ happening after, happening.kind? = some kind ∧
      DemoStep cpu build prepared nowNs bootNs running happening after ∧ Fits target after := by
  rcases @Fits.goes_on _ _ cpu build nowNs bootNs _ _ fits _ _ leads with
    ⟨happening, after, taken, step⟩
  refine ⟨happening, after, taken, step, ?_⟩
  rcases fits.step step with ⟨silent, _⟩ | ⟨other, reached, _, found, there⟩
  · cases taken.symm.trans silent
  · cases leads.symm.trans found
    exact there

end Course

/-! ## Whole runs -/

/-- What happens, interrupts aside: B receives, A sends, the idle task is woken and yields,
B has the message, replies and yields, A is back from its send and receives. -/
def course : List Kind :=
  [.calls, .calls, .wakes, .calls, .resumes, .calls, .calls, .resumes, .calls]

def printed (elapsed : UInt64) : List Line :=
  [.taskBWaiting, .taskASending, .taskBReceived 0xAAAA, .taskAReceived 0xBBBB, .allTasksComplete,
    .elapsed elapsed]

/-- How much of the course is behind a phase. -/
def Phase.behind : Phase → Nat
  | .started => 0
  | .bWaits => 1
  | .aSent => 2
  | .woken => 3
  | .idleYielded => 4
  | .bReceived => 5
  | .bReplied => 6
  | .bYielded => 7
  | .aResumed => 8
  | .finished => 9

theorem Phase.behind_next {phase target : Phase} {kind : Kind}
    (leads : phase.next? = some (kind, target)) :
    course.take target.behind = course.take phase.behind ++ [kind] := by
  cases phase <;> cases leads <;> rfl

def kinds {Context Machine : Type}
    (trace : List (Transition (Running Context Machine) (Happening Machine))) : List Kind :=
  (labels trace).filterMap Happening.kind?

section Runs

variable {Context Machine : Type} {cpu : Cpu Context Machine} {build : Build}
  {nowNs : Machine → UInt64} {bootNs : UInt64} {running after : Running Context Machine}
  {trace : List (Transition (Running Context Machine) (Happening Machine))}

theorem phase_of_run (fits : Fits .started running)
    (run : Run (DemoStep cpu build prepared nowNs bootNs) running trace after) :
    ∃ phase, Fits phase after ∧ kinds trace = course.take phase.behind := by
  induction run with
  | nil => exact ⟨.started, fits, rfl⟩
  | @snoc trace middle after happening earlier step ih =>
      rcases ih with ⟨phase, there, so⟩
      have more : kinds (trace ++ [⟨middle, happening, after⟩]) =
          kinds trace ++ happening.kind?.toList := by
        rw [kinds, labels_snoc, filter_map_snoc]
        rfl
      rw [more, so]
      rcases there.step step with ⟨silent, same⟩ | ⟨kind, target, happens, leads, reached⟩
      · refine ⟨phase, same, ?_⟩
        rw [silent]
        exact List.append_nil _
      · refine ⟨target, reached, ?_⟩
        rw [happens, Phase.behind_next leads]
        rfl

theorem Phase.console_prefix (phase : Phase) (elapsed : UInt64) :
    phase.console elapsed <+: printed elapsed := by
  cases phase <;> exact ⟨_, rfl⟩

theorem Phase.no_panic (phase : Phase) (name : TaskName) (message : String) :
    phase.point name ≠ .panicked message := by
  cases phase <;> cases name <;> exact fun panicked => nomatch panicked

theorem Phase.done_iff (phase : Phase) :
    phase.point .a = .aSpins ↔ course.take phase.behind = course := by
  cases phase <;> decide

theorem Phase.next_of_unfinished {phase : Phase} (unfinished : phase.point .a ≠ .aSpins) :
    ∃ kind target, phase.next? = some (kind, target) := by
  cases phase <;> first | exact ⟨_, _, rfl⟩ | exact absurd rfl unfinished

theorem Phase.early_of_asleep (phase : Phase) (asleep : .wakes ∉ course.take phase.behind) :
    phase = .started ∨ phase = .bWaits ∨ phase = .aSent := by
  cases phase with
  | started => exact .inl rfl
  | bWaits => exact .inr (.inl rfl)
  | aSent => exact .inr (.inr rfl)
  | woken | idleYielded | bReceived | bReplied | bYielded | aResumed | finished =>
      exact absurd (by decide) asleep

theorem asleep_phase (fits : Fits .started running)
    (run : Run (DemoStep cpu build prepared nowNs bootNs) running trace after)
    (asleep : ∀ taken ∈ trace, taken.label ≠ .wakes) :
    ∃ phase, Fits phase after ∧ kinds trace = course.take phase.behind ∧
      (phase = .started ∨ phase = .bWaits ∨ phase = .aSent) := by
  rcases phase_of_run fits run with ⟨phase, there, so⟩
  refine ⟨phase, there, so, phase.early_of_asleep ?_⟩
  rw [← so]
  intro woken
  rcases List.mem_filterMap.mp woken with ⟨happening, listed, wakes⟩
  rcases List.mem_map.mp listed with ⟨taken, member, rfl⟩
  apply asleep taken member
  cases called : taken.label with
  | wakes => rfl
  | calls | resumes | interrupted =>
      rw [called] at wakes
      cases wakes

/-- The whole demo, from `kernel_entry` on, on any processor, with interrupts at any time:
no `expect` fires, tasks print what they should in the order in which they should, and
what happens is the one course, in which task A is done exactly at its end, with an
answer from the idle task's `wfi` on the way. Before the end the next step of the course
can always be taken, if the environment makes that `wfi` come back. -/
theorem demo_course (cpu : Cpu Context Machine) (build : Build) (nowNs : Machine → UInt64)
    (bootNs : UInt64) (addresses : Addresses) (machine : Machine) :
    ∃ published booted, kernelEntry cpu build addresses machine = some (published, booted) ∧
      ∀ trace after, Run (DemoStep cpu build published nowNs bootNs) (Running.boot booted)
          trace after →
        (∀ name message, after.points name ≠ .panicked message) ∧
        (∃ elapsed, after.console <+: printed elapsed) ∧
        kinds trace <+: course ∧
        (after.points .a = .aSpins ↔ kinds trace = course) ∧
        (kinds trace ≠ course → ∃ happening next, happening.kind? ≠ none ∧
          DemoStep cpu build published nowNs bootNs after happening next) := by
  rcases Fits.start cpu build addresses machine with ⟨booted, ran, fits⟩
  refine ⟨prepared, booted, ran, ?_⟩
  intro trace after run
  rcases phase_of_run fits run with ⟨phase, there, so⟩
  rcases there.console with ⟨elapsed, shown⟩
  refine ⟨?_, ⟨elapsed, ?_⟩, ?_, ?_, ?_⟩
  · intro name message
    rw [there.points]
    exact phase.no_panic name message
  · rw [shown]
    exact phase.console_prefix elapsed
  · rw [so]
    exact List.take_prefix _ _
  · rw [so, there.points]
    exact phase.done_iff
  · intro unfinished
    rw [so, Ne, ← phase.done_iff] at unfinished
    rcases Phase.next_of_unfinished unfinished with ⟨kind, target, leads⟩
    rcases @Fits.goes_on _ _ cpu build nowNs bootNs _ _ there _ _ leads with
      ⟨happening, next, taken, step⟩
    exact ⟨happening, next, by simp [taken], step⟩

/-- The demo does go through the `wfi` of the idle task: until that comes back, whatever else
happens, task A has sent at most, task B is not back from its receive although the message
has been delivered, and with the idle task in control nothing but an interrupt happens. -/
theorem demo_waits_for_wake (cpu : Cpu Context Machine) (build : Build)
    (nowNs : Machine → UInt64) (bootNs : UInt64) (addresses : Addresses) (machine : Machine) :
    ∃ published booted, kernelEntry cpu build addresses machine = some (published, booted) ∧
      ∀ trace after, Run (DemoStep cpu build published nowNs bootNs) (Running.boot booted)
          trace after →
        (∀ taken ∈ trace, taken.label ≠ .wakes) →
        kinds trace <+: [.calls, .calls] ∧
        after.console <+: [.taskBWaiting, .taskASending] ∧
        after.points .b = .bReceives ∧ after.points .a = .aSends ∧
        (kinds trace = [.calls, .calls] → InControl published after .idle ∧
          endpointState after.kernel.world published.epHandle = .recvComplete messageOfA none ∧
          ∀ happening next, DemoStep cpu build published nowNs bootNs after happening next →
            happening = .wakes ∨ happening.kind? = none) := by
  rcases Fits.start cpu build addresses machine with ⟨booted, ran, fits⟩
  refine ⟨prepared, booted, ran, ?_⟩
  intro trace after run asleep
  rcases asleep_phase fits run asleep with ⟨phase, there, so, early⟩
  rcases there.console with ⟨elapsed, shown⟩
  rw [so, shown, there.points, there.points]
  rcases early with rfl | rfl | rfl
  · exact ⟨⟨_, rfl⟩, ⟨_, rfl⟩, rfl, rfl, fun none_taken => nomatch none_taken⟩
  · exact ⟨⟨_, rfl⟩, ⟨_, rfl⟩, rfl, rfl, fun one_taken => nomatch one_taken⟩
  · refine ⟨⟨_, rfl⟩, ⟨_, rfl⟩, rfl, rfl, fun _ => ⟨there.control.mpr rfl, ?_, ?_⟩⟩
    · exact there.wired.state
    · intro happening next step
      rcases there.step step with ⟨silent, _⟩ | ⟨kind, target, happens, leads, _⟩
      · exact .inr silent
      · cases leads
        cases happening with
        | wakes => exact .inl rfl
        | calls | resumes | interrupted => cases happens

end Runs

end Tyrne.Demo
