import Tyrne.Waiters

/-!
# When the idle task runs

The idle task is registered last and only yields, but to the scheduler it is a task in
line like every other. It comes to the front whenever the tasks before it have had
their turn, and then takes over from whoever gives way, also when application tasks
are ready. The steps at which this happens are listed exactly.
-/

namespace Tyrne.Sched

open Tyrne.Lib.Effect
open Tyrne.Lib.Runs
open Tyrne.Cap
open Tyrne.ObjArena
open Tyrne.Ipc
open Tyrne.System

set_option autoImplicit false

variable {Party Context Machine : Type}

/-! ## Giving way -/

/-- A send with these arguments would be delivered. -/
def Delivers (world : World Party) (party : Party) (epCap : CapHandle)
    (transfer : Option CapHandle) : Prop :=
  ∃ ep owned after, Names (world.tables party) epCap .send ep ∧ Live world.arena ep.slot ∧
    stateAt world.queues ep = .recvWaiting ∧
    checkTransfer transfer (world.tables party) = .ok () (world.tables party) ∧
    Takes (world.tables party) transfer owned after

/-- A receive with these arguments would find nothing and wait. -/
def Waits (world : World Party) (party : Party) (epCap : CapHandle) : Prop :=
  ∃ ep, Names (world.tables party) epCap .recv ep ∧ Live world.arena ep.slot ∧
    stateAt world.queues ep = .idle

/-- The idle task is first in line, another task is in control, and this task yields,
delivers a message, or blocks while others stand behind the idle task. -/
def LetsIdleIn (idle : TaskHandle) (view : View Party) (event : Event Party Machine) : Prop :=
  view.roster.current ≠ idle ∧ view.roster.ready.head? = some idle ∧
    match event with
    | .call .yieldNow => True
    | .call (.ipcSendAndYield party epCap _ transfer) =>
        Delivers view.world party epCap transfer
    | .call (.ipcRecvAndYield party epCap) =>
        Waits view.world party epCap ∧ view.roster.ready.tail ≠ []
    | .resume => False
    | .elsewhere _ _ => False

theorem View.turn_cons {view : View Party} {first : TaskHandle} {rest : List TaskHandle}
    (line : view.roster.ready = first :: rest) (suspend : Frame Party) :
    (view.turn suspend).roster.current = first ∧
      (view.turn suspend).roster.ready = rest ++ [view.roster.current] := by
  have order := View.runnable_turn view suspend
  rw [line] at order
  exact List.cons.inj order

theorem View.turn_takes_over {view : View Party} {idle first : TaskHandle}
    {rest : List TaskHandle} (line : view.roster.ready = first :: rest) (suspend : Frame Party) :
    (view.turn suspend).roster.current = idle ∧ (view.turn suspend).roster.ready ≠ [] ↔
      first = idle := by
  rcases View.turn_cons line suspend with ⟨current, ready⟩
  rw [current, ready]
  simp

theorem wake_line {roster : Roster} {first : TaskHandle} {rest : List TaskHandle}
    (line : roster.ready = first :: rest) (ep : EndpointHandle) :
    ∃ more, (roster.wake ep).ready = first :: more := by
  cases waiter : roster.waiterOn ep with
  | none => exact ⟨rest, by simpa only [Roster.wake, waiter] using line⟩
  | some idx =>
      cases known : roster.handles idx with
      | none => exact ⟨rest, by simpa only [Roster.wake, waiter, known] using line⟩
      | some handle =>
          refine ⟨rest ++ [handle], ?_⟩
          simp [Roster.wake, waiter, known, Roster.rejoin, line]

section Steps

variable [DecidableEq Party] {build : Build} {view next : View Party} {world : World Party}
  {party : Party} {epCap : CapHandle} {msg : Message} {transfer : Option CapHandle}

theorem Sends.of_delivers (sound : Sound view.world)
    (delivers : Delivers view.world party epCap transfer) {result : Except IpcError SendOutcome}
    (sends : Sends build view.world party epCap msg transfer result world) :
    result = .ok .delivered := by
  rcases delivers with ⟨ep, owned, after, names, live, waiting, checked, takes⟩
  rcases sends with ⟨final, returned, _⟩
  have ran := @ipc_send_delivers (seenBy view.world party) epCap transfer ep owned after names
    live (sound.attended.drained ep live) waiting checked takes build msg
  rw [ran] at returned
  cases result with
  | ok value =>
      cases returned
      rfl
  | error error => cases returned

theorem Sends.delivers_of (sound : Sound view.world)
    (sends : Sends build view.world party epCap msg transfer (.ok .delivered) world) :
    Delivers view.world party epCap transfer := by
  have ran := sends
  rcases sends.step sound with ⟨final, step, _⟩
  cases step with
  | @delivered ep owned after names live waiting takes =>
      rcases ran with ⟨other, returned, _⟩
      exact ⟨ep, owned, after, names, live, waiting, sent_checked names returned, takes⟩

theorem Receives.of_waits (sound : Sound view.world)
    (waits : Waits view.world party epCap) {result : Except IpcError RecvOutcome}
    (receives : Receives build view.world party epCap result world) :
    result = .ok .pending := by
  rcases waits with ⟨ep, names, live, idle⟩
  rcases receives.step sound with ⟨final, step, _⟩
  cases step with
  | refused nobody => exact absurd live (nobody ep names)
  | full otherNames _ parked _ =>
      cases names_unique names otherNames
      rw [show stateAt (seenBy view.world party).queues ep = .idle from idle] at parked
      cases parked
  | received otherNames _ stored _ =>
      cases names_unique names otherNames
      rw [show stateAt (seenBy view.world party).queues ep = .idle from idle] at stored
      cases stored
  | pending _ _ _ => rfl
  | busy otherNames _ waiting =>
      cases names_unique names otherNames
      cases idle.symm.trans waiting

theorem Receives.waits_of (sound : Sound view.world)
    (receives : Receives build view.world party epCap (.ok .pending) world) :
    Waits view.world party epCap := by
  rcases receives.step sound with ⟨final, step, _⟩
  cases step with
  | @pending ep names live idle => exact ⟨ep, names, live, idle⟩

theorem ViewStep.lets_idle_in_iff {idle : TaskHandle} {event : Event Party Machine}
    {result : Except SchedError Reply} (step : ViewStep build view event result next)
    (sound : Sound view.world) (member : idle ∈ view.roster.runnable) :
    LetsIdleIn idle view event ↔
      view.roster.current ≠ idle ∧ next.roster.current = idle ∧ next.roster.ready ≠ [] := by
  have stays : next.roster.current = view.roster.current →
      ¬ (view.roster.current ≠ idle ∧ next.roster.current = idle ∧ next.roster.ready ≠ []) := by
    rintro same ⟨other, isIdle, _⟩
    exact other (same.symm.trans isIdle)
  cases step with
  | yielded rest =>
      cases line : view.roster.ready with
      | nil =>
          refine iff_of_false ?_ (stays (by simp only [View.turn, line]))
          rintro ⟨_, first, _⟩
          rw [line] at first
          cases first
      | cons first others =>
          rw [View.turn_takes_over line]
          simp [LetsIdleIn, line]
  | sent rest sends quiet =>
      refine iff_of_false ?_ (stays rfl)
      rintro ⟨_, _, delivers⟩
      exact quiet (sends.of_delivers sound delivers)
  | @delivered _ _ _ _ ep final woken guard rest resolves sends wakes =>
      cases line : view.roster.ready with
      | nil =>
          have own : idle = view.roster.current := by simpa [Roster.runnable, line] using member
          exact iff_of_false (fun lets => lets.1 own.symm) (fun takes => takes.1 own.symm)
      | cons first others =>
          rcases wake_line line ep with ⟨more, awake⟩
          subst wakes
          have delivers := sends.delivers_of sound
          rw [@View.turn_takes_over _ ⟨view.roster.wake ep, final, view.frames⟩ _ _ _ awake]
          simp [LetsIdleIn, line, delivers]
  | received rest receives done =>
      refine iff_of_false ?_ (stays rfl)
      rintro ⟨_, _, waits, _⟩
      exact done (receives.of_waits sound waits)
  | deadlocked rest receives alone =>
      refine iff_of_false ?_ (stays rfl)
      rintro ⟨_, first, _⟩
      rw [alone] at first
      cases first
  | @blocked _ _ ep final guard rest resolves receives others =>
      rcases List.exists_cons_of_ne_nil others with ⟨first, behind, line⟩
      have current : (view.roster.block ep).current = first := by simp only [Roster.block, line]
      have ready : (view.roster.block ep).ready = behind := by simp only [Roster.block, line]
      constructor
      · rintro ⟨other, front, _, crowd⟩
        rw [line] at front crowd
        refine ⟨other, current.trans (Option.some.inj front), ?_⟩
        rw [ready]
        exact crowd
      · rintro ⟨other, isIdle, crowd⟩
        rw [current] at isIdle
        rw [ready] at crowd
        refine ⟨other, by rw [line, isIdle]; rfl, receives.waits_of sound, ?_⟩
        rw [line]
        exact crowd
  | backFromYield suspended => exact iff_of_false (fun lets => lets.2.2) (stays rfl)
  | backFromSend suspended => exact iff_of_false (fun lets => lets.2.2) (stays rfl)
  | collected suspended receives done => exact iff_of_false (fun lets => lets.2.2) (stays rfl)
  | pendingAfterResume suspended receives =>
      exact iff_of_false (fun lets => lets.2.2) (stays rfl)
  | elsewhere rest => exact iff_of_false (fun lets => lets.2.2) (stays rfl)

end Steps

/-! ## Whole runs -/

section Runs

variable [DecidableEq Party]

/-- Between bridge calls anything may be done to the shared objects, except that no
endpoint is destroyed that holds a parked capability. -/
def Lawful (build : Build) (world : World Party) (event : Event Party Machine) : Prop :=
  ∀ after machine, event = .elsewhere after machine →
    after = world ∨ ∃ call, SystemStep build world call after ∧ Guarded world call.op

def IdleStep (cpu : Cpu Context Machine) (build : Build) (idle : TaskHandle)
    (kernel : Kernel Party Context Machine) (label : KernelLabel Party Machine)
    (after : Kernel Party Context Machine) : Prop :=
  KernelStep cpu build kernel label after ∧
    OnlyYields idle (rosterOf kernel.sched).current label.event ∧
    Lawful build kernel.world label.event

/-- When the idle task becomes current, no application task is in the ready queue and
every one is blocked. -/
def IdleLast (apps : List TaskHandle) (idle : TaskHandle)
    (taken : Transition (Kernel Party Context Machine) (KernelLabel Party Machine)) : Prop :=
  taken.before.sched.current ≠ some idle → taken.after.sched.current = some idle →
    ∀ app ∈ apps, app ∉ lineOf taken.after.sched.ready ∧
      ∃ ep, statesOf taken.after.sched (slotOf app) = .blocked ep

variable {cpu : Cpu Context Machine} {build : Build} {idle : TaskHandle}
  {kernel after : Kernel Party Context Machine} {trace : KernelTrace Party Context Machine}
  {apps : List TaskHandle}

theorem ViewStep.sound {view next : View Party} {event : Event Party Machine}
    {result : Except SchedError Reply} (step : ViewStep build view event result next)
    (lawful : Lawful build view.world event) (sound : Sound view.world) : Sound next.world := by
  cases step with
  | yielded rest =>
      rw [View.world_turn]
      exact sound
  | sent rest sends quiet => exact sends.sound sound
  | delivered rest resolves sends wakes =>
      rw [View.world_turn, wakes]
      exact sends.sound sound
  | received rest receives done => exact receives.sound sound
  | deadlocked rest receives alone => exact receives.sound sound
  | blocked rest resolves receives others => exact receives.sound sound
  | backFromYield suspended => exact sound
  | backFromSend suspended => exact sound
  | collected suspended receives done => exact receives.sound sound
  | pendingAfterResume suspended receives => exact receives.sound sound
  | @elsewhere world machine rest =>
      rcases lawful world machine rfl with same | ⟨call, moved, guarded⟩
      · subst same
        exact sound
      · exact (moved.world_step sound).sound sound guarded

theorem IdledStep.idle_step {owner : Index → Party} {label : KernelLabel Party Machine}
    (step : IdledStep cpu build owner idle kernel label after) :
    IdleStep cpu build idle kernel label after := by
  rcases step with ⟨⟨step, behaves⟩, yields⟩
  refine ⟨step, yields, ?_⟩
  intro world machine happened
  rw [happened] at behaves
  cases behaves with
  | computes => exact Or.inl rfl
  | creates moved => exact Or.inr ⟨_, moved, fun _ same => by cases same⟩
  | tends moved => exact Or.inr ⟨_, moved, fun _ same => by cases same⟩

/-- What a run of such a system keeps. -/
structure Backed (apps : List TaskHandle) (idle : TaskHandle)
    (kernel : Kernel Party Context Machine) : Prop where
  intact : Intact kernel
  sound : Sound kernel.world
  knows : Knows (rosterOf kernel.sched) (apps ++ [idle])
  idle : idle ∈ (rosterOf kernel.sched).runnable

theorem IdleStep.backed {label : KernelLabel Party Machine} (backed : Backed apps idle kernel)
    (step : IdleStep cpu build idle kernel label after) : Backed apps idle after := by
  rcases step with ⟨step, yields, lawful⟩
  rcases step.view_step backed.intact with ⟨intact, moved⟩
  refine ⟨intact, moved.sound lawful backed.sound, ?_, moved.idler_runnable yields backed.idle⟩
  intro handle
  rw [step.handles backed.intact]
  exact backed.knows handle

theorem backed_of_run (backed : Backed apps idle kernel)
    (run : Run (IdleStep cpu build idle) kernel trace after) : Backed apps idle after :=
  run_invariant backed (fun _ _ _ held step => step.backed held) run

omit [DecidableEq Party] in
theorem Backed.apps_blocked_iff (backed : Backed apps idle kernel) (apart : idle ∉ apps)
    (isCurrent : (rosterOf kernel.sched).current = idle) :
    (∀ app ∈ apps, app ∉ lineOf kernel.sched.ready ∧
      ∃ ep, statesOf kernel.sched (slotOf app) = .blocked ep) ↔
      (rosterOf kernel.sched).ready = [] := by
  have orderly := backed.intact.orderly
  constructor
  · intro blocked
    apply List.eq_nil_iff_forall_not_mem.mpr
    intro handle inLine
    have runnable : handle ∈ (rosterOf kernel.sched).runnable := List.mem_cons_of_mem _ inLine
    have known := (backed.knows handle).mpr (orderly.enrolled handle runnable).1
    rcases List.mem_append.mp known with isApp | isIdle
    · exact (blocked handle isApp).1 inLine
    · rw [List.mem_singleton.mp isIdle, ← isCurrent] at inLine
      exact orderly.current_apart inLine
  · intro nobody app isApp
    have stored := (backed.knows app).mp (List.mem_append_left _ isApp)
    have notRunnable : app ∉ (rosterOf kernel.sched).runnable := by
      intro member
      rw [Roster.runnable, nobody, List.mem_singleton, isCurrent] at member
      exact apart (member ▸ isApp)
    refine ⟨fun inLine => notRunnable (List.mem_cons_of_mem _ inLine), ?_⟩
    exact (orderly.blocked_iff stored).mpr notRunnable

theorem idle_last_step {label : KernelLabel Party Machine} (backed : Backed apps idle kernel)
    (apart : idle ∉ apps) (step : IdleStep cpu build idle kernel label after) :
    IdleLast apps idle ⟨kernel, label, after⟩ ↔ ¬ LetsIdleIn idle (viewOf kernel) label.event := by
  have next := step.backed backed
  have moved := (step.1.view_step backed.intact).2
  rw [moved.lets_idle_in_iff backed.sound backed.idle]
  have before : kernel.sched.current ≠ some idle ↔ (rosterOf kernel.sched).current ≠ idle := by
    rw [Ne, backed.intact.current_iff]
    exact not_congr eq_comm
  have later : after.sched.current = some idle ↔ (rosterOf after.sched).current = idle := by
    rw [next.intact.current_iff]
    exact eq_comm
  rw [IdleLast, before, later]
  constructor
  · rintro last ⟨other, isCurrent, crowd⟩
    exact crowd ((next.apps_blocked_iff apart isCurrent).mp (last other isCurrent))
  · intro quiet other isCurrent
    apply (next.apps_blocked_iff apart isCurrent).mpr
    by_contra crowd
    exact quiet ⟨other, isCurrent, crowd⟩

end Runs

section Boot

variable [DecidableEq Party] (cpu : Cpu Context Machine) (build : Build) (machine : Machine)

/-- With the idle task registered last and only yielding, a run has the idle task
become current only when every application task is blocked, exactly if no task lets it
in while it stands first in line. -/
theorem idle_last_iff {world : World Party} (fresh : Fresh world)
    {registrations : List Registration} {apps : List TaskHandle} {idle : TaskHandle}
    (registrable : Registrable (registrations.map Registration.handle))
    (idleLast : registrations.map Registration.handle = apps ++ [idle]) :
    ∃ booted, start cpu registrations (powerOn cpu world machine) = .ok () booted ∧
      (booted.sched.current = some idle → apps = []) ∧
      ∀ trace after, Run (IdleStep cpu build idle) booted trace after →
        ((∀ taken ∈ trace, ¬ LetsIdleIn idle (viewOf taken.before) taken.label.event) ↔
          ∀ taken ∈ trace, IdleLast apps idle taken) := by
  have isRegistered : idle ∈ registrations.map Registration.handle := by simp [idleLast]
  have apart : idle ∉ apps := by
    intro isApp
    have distinct := registrable.distinct
    rw [idleLast, List.map_append, List.nodup_append] at distinct
    exact distinct.2.2 _ (List.mem_map_of_mem isApp) _ (by simp) rfl
  rcases boot_run cpu world machine (anyone_of_registered isRegistered) registrable with
    ⟨booted, first, rest, ran, handles, intact, shown⟩
  have roster : rosterOf booted.sched = startingRoster first rest :=
    congrArg View.roster shown
  have listed : apps ++ [idle] = first :: rest := idleLast.symm.trans handles
  rw [handles] at registrable
  have backed : Backed apps idle booted := by
    refine ⟨intact, ?_, ?_, ?_⟩
    · rw [show booted.world = _ from congrArg View.world shown]
      exact fresh.sound
    · rw [roster, listed]
      exact starting_knows registrable
    · rw [roster]
      have member : idle ∈ first :: rest := by simp [← listed]
      exact member
  refine ⟨booted, ran, ?_, ?_⟩
  · intro isCurrent
    have isFirst : idle = first := by
      rw [intact.current_iff, roster] at isCurrent
      exact isCurrent
    cases apps with
    | nil => rfl
    | cons app others =>
        exfalso
        apply apart
        have front := congrArg List.head? listed
        rw [isFirst]
        simpa [eq_comm] using Or.inl front
  · intro trace after run
    constructor
    · intro quiet taken member
      rcases run_member run member with ⟨front, early, step, _⟩
      exact (idle_last_step (backed_of_run backed early) apart step).mpr (quiet taken member)
    · intro obeyed taken member
      rcases run_member run member with ⟨front, early, step, _⟩
      exact (idle_last_step (backed_of_run backed early) apart step).mp (obeyed taken member)

end Boot

/-! ## Two yields -/

/-- With two application tasks, two yields bring the idle task to the front while both
are ready. -/
theorem idle_runs_before_ready_tasks :
    start plainCpu [taskIn 0, taskIn 1, taskIn 2] (powerOn plainCpu sharedWorld (0, 0)) =
        .ok () trio ∧
      Run (IdleStep plainCpu ⟨true⟩ ⟨⟨2, 0⟩⟩) trio
        (played plainCpu ⟨true⟩ [yieldBy, yieldBy] trio)
        (playedTo plainCpu ⟨true⟩ [yieldBy, yieldBy] trio) ∧
      ∃ taken ∈ played plainCpu ⟨true⟩ [yieldBy, yieldBy] trio,
        taken.after.sched.current = some ⟨⟨2, 0⟩⟩ ∧
        lineOf taken.after.sched.ready = [⟨⟨0, 0⟩⟩, ⟨⟨1, 0⟩⟩] ∧
        ¬ IdleLast [⟨⟨0, 0⟩⟩, ⟨⟨1, 0⟩⟩] ⟨⟨2, 0⟩⟩ taken := by
  have run : Run (IdledStep plainCpu ⟨true⟩ id ⟨⟨2, 0⟩⟩) trio
      (played plainCpu ⟨true⟩ [yieldBy, yieldBy] trio)
      (playedTo plainCpu ⟨true⟩ [yieldBy, yieldBy] trio) :=
    idled_played_run (by decide +kernel) (by decide +kernel)
  refine ⟨(boots_with (by simp) trio_registrable).1,
    run_weaken (fun _ _ _ step => step.idle_step) run, _,
    List.mem_cons_of_mem _ List.mem_cons_self, by decide +kernel, by decide +kernel, ?_⟩
  intro last
  have blocked := last (by decide +kernel) (by decide +kernel) ⟨⟨0, 0⟩⟩ (by decide)
  exact blocked.1 (by decide +kernel)

def duo : PlainKernel := bootWith [taskIn 0, taskIn 1]

theorem idle_last_iff_blocked_app :
    (playedTo plainCpu ⟨true⟩ [recvBy 0] duo).sched.current = some ⟨⟨1, 0⟩⟩ ∧
      ∀ taken ∈ played plainCpu ⟨true⟩ [recvBy 0] duo,
        IdleLast [⟨⟨0, 0⟩⟩] ⟨⟨1, 0⟩⟩ taken := by
  have registrable : Registrable ([taskIn 0, taskIn 1].map Registration.handle) :=
    ⟨by decide, by decide⟩
  rcases @idle_last_iff _ _ _ _ plainCpu ⟨true⟩ (0, 0) _ shared_world_fresh
    [taskIn 0, taskIn 1] [⟨⟨0, 0⟩⟩] ⟨⟨1, 0⟩⟩ registrable rfl with ⟨reached, ran, _, exact_law⟩
  have booted : duo = reached := booted_with ran
  rw [← booted] at exact_law
  have run : Run (IdledStep plainCpu ⟨true⟩ id ⟨⟨1, 0⟩⟩) duo
      (played plainCpu ⟨true⟩ [recvBy 0] duo) (playedTo plainCpu ⟨true⟩ [recvBy 0] duo) :=
    idled_played_run (by decide +kernel) (by decide +kernel)
  refine ⟨by decide +kernel, ?_⟩
  apply (exact_law _ _ (run_weaken (fun _ _ _ step => step.idle_step) run)).mp
  intro taken member
  rw [List.mem_singleton.mp member]
  rintro ⟨_, _, _, crowd⟩
  have alone : (rosterOf duo.sched).ready.tail = [] := by decide +kernel
  exact crowd alone

end Tyrne.Sched
