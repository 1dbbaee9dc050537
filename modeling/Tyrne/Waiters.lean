import Tyrne.WakeUp

/-!
# Who waits behind a waiting endpoint

The converse of the wake-up invariant: an endpoint that waits for a receiver has a
blocked task behind it. It needs a task that never blocks, so that no receive ends in
a deadlock report; and it breaks exactly where a resumed receiver finds its endpoint
idle, because that receive marks the endpoint waiting and then does not block.
-/

namespace Tyrne.Sched

open Tyrne.Lib.Effect
open Tyrne.Lib.Runs
open Tyrne.Cap
open Tyrne.ObjArena
open Tyrne.Ipc
open Tyrne.System (World Fresh endpointAt endpoint_at_named)

set_option autoImplicit false

variable {Party Context Machine : Type}

/-! ## A task that only yields -/

/-- When `idler` is in control, the only call it makes is `yield_now`. -/
def OnlyYields (idler current : TaskHandle) (event : Event Party Machine) : Prop :=
  current = idler → ∀ call, event = .call call → call = .yieldNow

theorem mem_runnable_turn {view : View Party} {handle : TaskHandle} (suspend : Frame Party)
    (member : handle ∈ view.roster.runnable) :
    handle ∈ (view.turn suspend).roster.runnable := by
  rw [View.runnable_turn]
  rcases List.mem_cons.mp member with same | later
  · simp [same]
  · simp [later]

theorem mem_runnable_wake {roster : Roster} {handle : TaskHandle} (ep : EndpointHandle)
    (member : handle ∈ roster.runnable) : handle ∈ (roster.wake ep).runnable := by
  cases waiter : roster.waiterOn ep with
  | none => simpa only [Roster.wake, waiter] using member
  | some idx =>
      cases known : roster.handles idx with
      | none => simpa only [Roster.wake, waiter, known] using member
      | some other =>
          have joined : (roster.wake ep).runnable = roster.runnable ++ [other] := by
            simp [Roster.wake, waiter, known, Roster.rejoin, Roster.runnable]
          rw [joined]
          exact List.mem_append_left _ member

theorem mem_runnable_block {roster : Roster} {handle : TaskHandle} (ep : EndpointHandle)
    (member : handle ∈ roster.runnable) (other : handle ≠ roster.current) :
    handle ∈ (roster.block ep).runnable := by
  cases line : roster.ready with
  | nil =>
      simp only [Roster.block, line]
      exact member
  | cons next rest =>
      simp only [Roster.block, Roster.runnable, line]
      rcases List.mem_cons.mp member with same | later
      · exact absurd same other
      · rw [line] at later
        exact later

theorem Orderly.current_not_blocked {roster : Roster} (orderly : Orderly roster) {idx : Index}
    {ep : EndpointHandle} (blocked : roster.states idx = .blocked ep) :
    idx ≠ slotOf roster.current := by
  intro same
  have ownReady := (orderly.enrolled roster.current List.mem_cons_self).2
  rw [same, ownReady] at blocked
  cases blocked

section Steps

variable [DecidableEq Party] {build : Build} {view next : View Party} {own : Party}
  {event : Event Party Machine} {result : Except SchedError Reply} {idler : TaskHandle}

theorem ViewStep.idler_runnable (step : ViewStep build view event result next)
    (yields : OnlyYields idler view.roster.current event)
    (member : idler ∈ view.roster.runnable) : idler ∈ next.roster.runnable := by
  cases step with
  | yielded rest => exact mem_runnable_turn _ member
  | sent rest sends quiet => exact member
  | delivered rest resolves sends wakes =>
      apply mem_runnable_turn
      rw [wakes]
      exact mem_runnable_wake _ member
  | received rest receives done => exact member
  | deadlocked rest receives alone => exact member
  | blocked rest resolves receives others =>
      apply mem_runnable_block _ member
      intro same
      cases yields same.symm _ rfl
  | backFromYield suspended => exact member
  | backFromSend suspended => exact member
  | collected suspended receives done => exact member
  | pendingAfterResume suspended receives => exact member
  | elsewhere rest => exact member

/-! ## Single steps -/

/-- Every endpoint that waits has a blocked task behind it. -/
def Attributed (roster : Roster) (world : World Party) : Prop :=
  ∀ ep, endpointState world ep = .recvWaiting → ∃ idx, roster.states idx = .blocked ep

/-- A receiver goes on at Phase 3 and its endpoint is idle. -/
def RetriesIdle (view : View Party) (event : Event Party Machine) : Prop :=
  event = .resume ∧ ∃ guard party epCap ep, view.frame = .inRecv guard party epCap ∧
    Names (view.world.tables party) epCap .recv ep ∧ Live view.world.arena ep.slot ∧
    endpointState view.world ep = .idle

omit [DecidableEq Party] in
theorem wake_keeps_blocked {roster : Roster} {ep on : EndpointHandle} {idx : Index}
    (blocked : roster.states idx = .blocked on) (elsewhere : on ≠ ep) :
    (roster.wake ep).states idx = .blocked on := by
  cases waiter : roster.waiterOn ep with
  | none => simpa only [Roster.wake, waiter] using blocked
  | some found =>
      cases known : roster.handles found with
      | none => simpa only [Roster.wake, waiter, known] using blocked
      | some handle =>
          have different : idx ≠ found := by
            intro same
            rw [same, waiter_blocked waiter] at blocked
            cases blocked
            exact elsewhere rfl
          simp only [Roster.wake, waiter, known, Roster.rejoin, Function.update_of_ne different]
          exact blocked

theorem ViewStep.attributed (step : ViewStep build view event result next)
    (behaves : Behaves build own view.world event) (orderly : Orderly view.roster)
    (coupled : Coupled view.roster view.world)
    (yields : OnlyYields idler view.roster.current event)
    (member : idler ∈ view.roster.runnable)
    (fresh : ¬ RetriesIdle view event) (attributed : Attributed view.roster view.world) :
    Attributed next.roster next.world := by
  have steady := coupled.steady
  cases step with
  | yielded rest =>
      intro ep waiting
      rw [View.world_turn] at waiting
      rw [View.states_turn]
      exact attributed ep waiting
  | sent rest sends quiet =>
      intro ep waiting
      exact attributed ep (sends.waited steady waiting)
  | @delivered party epCap msg transfer ep world woken guard rest resolves sends wakes =>
      rcases sends.delivers steady with ⟨home, owned, names, live, _, takes, states⟩
      cases (endpoint_at_named names).symm.trans resolves
      intro on waiting
      rw [View.world_turn, wakes] at waiting
      have different : on ≠ ep := by
        intro same
        simp only [states, same, Function.update_self] at waiting
        cases waiting
      rcases attributed on (sends.waited steady waiting) with ⟨idx, blocked⟩
      refine ⟨idx, ?_⟩
      rw [View.states_turn, wakes]
      exact wake_keeps_blocked blocked different
  | received rest receives done =>
      intro ep waiting
      exact attributed ep (receives.waited steady done waiting)
  | deadlocked rest receives alone =>
      have same : idler = view.roster.current := by
        simpa [Roster.runnable, alone] using member
      cases yields same.symm _ rfl
  | @blocked party epCap ep world guard rest resolves receives others =>
      rcases receives.pends steady with ⟨home, names, live, idle, tables, states⟩
      cases (endpoint_at_named names).symm.trans resolves
      intro on waiting
      rw [states] at waiting
      simp only [Roster.states_block _ _ others]
      by_cases same : on = ep
      · subst same
        exact ⟨slotOf view.roster.current, Function.update_self _ _ _⟩
      · rw [Function.update_of_ne same] at waiting
        rcases attributed on waiting with ⟨idx, blocked⟩
        refine ⟨idx, ?_⟩
        rw [Function.update_of_ne (orderly.current_not_blocked blocked)]
        exact blocked
  | backFromYield suspended => exact attributed
  | backFromSend suspended => exact attributed
  | collected suspended receives done =>
      intro ep waiting
      exact attributed ep (receives.waited steady done waiting)
  | pendingAfterResume suspended receives =>
      rcases receives.pends steady with ⟨home, names, live, idle, _, _⟩
      exact absurd ⟨rfl, _, _, _, home, suspended, names, live, idle⟩ fresh
  | elsewhere rest =>
      rcases behaves.elsewhere steady with ⟨_, states, _, _⟩
      intro ep waiting
      exact attributed ep ((congrFun states ep).symm.trans waiting)

theorem ViewStep.delivered_moves {party : Party} {epCap : CapHandle} {msg : Message}
    {transfer : Option CapHandle} (step : ViewStep build view
      (.call (.ipcSendAndYield party epCap msg transfer) : Event Party Machine) result next)
    (delivers : result = .ok .switched ∨ result = .ok (.sent .delivered))
    (orderly : Orderly view.roster) (coupled : Coupled view.roster view.world)
    (attributed : Attributed view.roster view.world) :
    ∃ ep idx, endpointAt (view.world.tables party) epCap = some ep ∧
      view.roster.states idx = .blocked ep ∧
      next.roster.states = Function.update view.roster.states idx .ready := by
  have steady := coupled.steady
  cases step with
  | @sent _ _ _ _ outcome world rest sends quiet =>
      cases outcome with
      | error error => simp [bridged] at delivers
      | ok value =>
          cases value with
          | delivered => exact absurd rfl quiet
          | enqueued => simp [bridged] at delivers
  | @delivered _ _ _ _ ep world woken guard rest resolves sends wakes =>
      rcases sends.delivers steady with ⟨home, owned, names, live, waiting, takes, states⟩
      cases (endpoint_at_named names).symm.trans resolves
      rcases attributed ep waiting with ⟨idx, blocked⟩
      rcases orderly.waiter_exists blocked with ⟨found, search⟩
      cases coupled.single found idx ep (waiter_blocked search) blocked
      rcases orderly.wake_some search with ⟨waiter, known, rejoined⟩
      refine ⟨ep, idx, resolves, blocked, ?_⟩
      rw [View.states_turn, wakes, rejoined]
      rfl

theorem ViewStep.refused_blocked {party : Party} {epCap : CapHandle}
    (step : ViewStep build view event result next)
    (receive : event = .call (.ipcRecvAndYield party epCap) ∨
      event = .resume ∧ ∃ guard, view.frame = .inRecv guard party epCap)
    (refused : result = .error (.ipc .queueFull)) (orderly : Orderly view.roster)
    (coupled : Coupled view.roster view.world)
    (attributed : Attributed view.roster view.world) :
    ∃ ep idx, endpointAt (view.world.tables party) epCap = some ep ∧
      view.roster.states idx = .blocked ep ∧ idx ≠ slotOf view.roster.current := by
  have steady := coupled.steady
  have blockedBehind : ∀ world,
      Receives build view.world party epCap (.error .queueFull) world →
      ∃ ep idx, endpointAt (view.world.tables party) epCap = some ep ∧
        view.roster.states idx = .blocked ep ∧ idx ≠ slotOf view.roster.current := by
    intro world receives
    cases (receives.fails steady).1 with
    | @busy ep names live waiting =>
        rcases attributed ep waiting with ⟨idx, blocked⟩
        exact ⟨ep, idx, endpoint_at_named names, blocked, orderly.current_not_blocked blocked⟩
  have reported : ∀ outcome : Except IpcError RecvOutcome,
      bridged .received outcome = .error (.ipc .queueFull) → outcome = .error .queueFull := by
    intro outcome same
    cases outcome with
    | ok value => cases same
    | error error =>
        cases same
        rfl
  rcases receive with called | ⟨resumed, guard, frame⟩
  · subst called
    cases step with
    | received rest receives done =>
        rw [reported _ refused] at receives
        exact blockedBehind _ receives
    | deadlocked rest receives alone => cases refused
    | blocked rest resolves receives others => cases refused
  · subst resumed
    cases step with
    | backFromYield suspended => cases refused
    | backFromSend suspended => cases refused
    | collected suspended receives done =>
        cases frame.symm.trans suspended
        rw [reported _ refused] at receives
        exact blockedBehind _ receives
    | pendingAfterResume suspended receives => cases refused

/-- The receive of a resumed receiver on an idle endpoint leaves it waiting with nobody
behind it. -/
theorem ViewStep.orphaned (step : ViewStep build view event result next)
    (retries : RetriesIdle view event) (coupled : Coupled view.roster view.world) :
    ¬ Attributed next.roster next.world := by
  have steady := coupled.steady
  rcases retries with ⟨rfl, guard, party, epCap, ep, frame, names, live, idle⟩
  cases step with
  | backFromYield suspended => cases frame.symm.trans suspended
  | backFromSend suspended => cases frame.symm.trans suspended
  | @collected _ _ _ outcome world suspended receives done =>
      cases frame.symm.trans suspended
      cases outcome with
      | error error =>
          cases (receives.fails steady).1 with
          | unnamed nobody => exact absurd live (nobody ep names)
          | full otherNames _ parked _ =>
              cases names_unique names otherNames
              rw [idle] at parked
              cases parked
          | busy otherNames _ waiting =>
              cases names_unique names otherNames
              rw [idle] at waiting
              cases waiting
      | ok value =>
          cases value with
          | pending => exact absurd rfl done
          | received msg fresh =>
              rcases receives.takes steady with ⟨home, cap, otherNames, _, stored, _, _⟩
              cases names_unique names otherNames
              rw [idle] at stored
              cases stored
  | pendingAfterResume suspended receives =>
      cases frame.symm.trans suspended
      rcases receives.pends steady with ⟨home, otherNames, _, _, _, states⟩
      cases names_unique names otherNames
      intro attributed
      have waiting : endpointState (view.back.withWorld _).world ep = .recvWaiting :=
        (congrFun states ep).trans (Function.update_self _ _ _)
      rcases attributed ep waiting with ⟨idx, blocked⟩
      have before := coupled.waiting idx ep blocked
      rw [idle] at before
      cases before

end Steps

/-! ## Whole runs -/

/-- What a transition must do about the tasks that wait: leave no endpoint waiting
without a blocked task, move exactly one blocked task for a delivered message, and
refuse a receive only because of a blocked task. -/
structure WaiterLaw (registered : List TaskHandle)
    (taken : Transition (Kernel Party Context Machine) (KernelLabel Party Machine)) : Prop where
  known : ∀ ep, stateAt taken.after.world.queues ep = .recvWaiting →
    ∃ handle ∈ registered, statesOf taken.after.sched (slotOf handle) = .blocked ep
  moved : ∀ party epCap msg transfer,
    taken.label.event = .call (.ipcSendAndYield party epCap msg transfer) →
    taken.label.result = .ok .switched ∨ taken.label.result = .ok (.sent .delivered) →
    ∃ ep idx, endpointAt (taken.before.world.tables party) epCap = some ep ∧
      statesOf taken.before.sched idx = .blocked ep ∧
      statesOf taken.after.sched = Function.update (statesOf taken.before.sched) idx .ready
  refused : ∀ current party epCap, taken.before.sched.current = some current →
    (taken.label.event = .call (.ipcRecvAndYield party epCap) ∨ taken.label.event = .resume ∧
      ∃ guard, taken.before.frames (slotOf current) = .inRecv guard party epCap) →
    taken.label.result = .error (.ipc .queueFull) →
    ∃ ep idx, endpointAt (taken.before.world.tables party) epCap = some ep ∧
      statesOf taken.before.sched idx = .blocked ep ∧ idx ≠ slotOf current

section Runs

variable [DecidableEq Party]

/-- A bridge step in a system where `idler` only yields. -/
def IdledStep (cpu : Cpu Context Machine) (build : Build) (owner : Index → Party)
    (idler : TaskHandle) (kernel : Kernel Party Context Machine)
    (label : KernelLabel Party Machine) (after : Kernel Party Context Machine) : Prop :=
  BridgeStep cpu build owner kernel label after ∧
    OnlyYields idler (rosterOf kernel.sched).current label.event

variable {cpu : Cpu Context Machine} {build : Build} {owner : Index → Party}
  {idler : TaskHandle} {kernel after : Kernel Party Context Machine}
  {trace : KernelTrace Party Context Machine} {registered : List TaskHandle}

theorem idled_bridge_run (run : Run (IdledStep cpu build owner idler) kernel trace after) :
    Run (BridgeStep cpu build owner) kernel trace after :=
  run_weaken (fun _ _ _ step => step.1) run

/-- What a run of such a system keeps. -/
structure Idled (idler : TaskHandle) (registered : List TaskHandle)
    (kernel : Kernel Party Context Machine) : Prop where
  intact : Intact kernel
  coupled : Coupled (rosterOf kernel.sched) kernel.world
  knows : Knows (rosterOf kernel.sched) registered
  idler : idler ∈ (rosterOf kernel.sched).runnable

theorem IdledStep.idled {label : KernelLabel Party Machine} (idled : Idled idler registered kernel)
    (step : IdledStep cpu build owner idler kernel label after) :
    Idled idler registered after := by
  rcases step with ⟨⟨step, behaves⟩, yields⟩
  rcases step.view_step idled.intact with ⟨intact, moved⟩
  refine ⟨intact, moved.coupled behaves idled.intact.orderly idled.coupled, ?_,
    moved.idler_runnable yields idled.idler⟩
  intro handle
  rw [step.handles idled.intact]
  exact idled.knows handle

omit [DecidableEq Party] in
theorem idled_at_boot {world : World Party} (fresh : Fresh world) {first : TaskHandle}
    {rest : List TaskHandle} (registrable : Registrable (first :: rest))
    (isRegistered : idler ∈ first :: rest) (intact : Intact kernel)
    (shown : viewOf kernel = ⟨startingRoster first rest, world, fun _ => .outside⟩) :
    Idled idler (first :: rest) kernel := by
  have roster : rosterOf kernel.sched = startingRoster first rest :=
    congrArg View.roster shown
  refine ⟨intact, coupled_at_boot fresh shown, ?_, ?_⟩
  · rw [roster]
    exact starting_knows registrable
  · rw [roster]
    exact isRegistered

theorem idled_of_run (idled : Idled idler registered kernel)
    (run : Run (IdledStep cpu build owner idler) kernel trace after) :
    Idled idler registered after :=
  run_invariant idled (fun _ _ _ held step => step.idled held) run

theorem attributed_of_run (idled : Idled idler registered kernel)
    (attributed : Attributed (rosterOf kernel.sched) kernel.world)
    (run : Run (IdledStep cpu build owner idler) kernel trace after)
    (fresh : ∀ taken ∈ trace, ¬ RetriesIdle (viewOf taken.before) taken.label.event) :
    Attributed (rosterOf after.sched) after.world := by
  induction run with
  | nil => exact attributed
  | @snoc earlier middle final label ran step ih =>
      have before := ih fun taken member => fresh taken (by simp [member])
      have held := idled_of_run idled ran
      have moved := (step.1.1.view_step held.intact).2
      exact moved.attributed step.1.2 held.intact.orderly held.coupled step.2 held.idler
        (fresh ⟨middle, label, final⟩ (by simp)) before

omit [DecidableEq Party] in
theorem Idled.blocked_registered (idled : Idled idler registered kernel) {idx : Index}
    {ep : EndpointHandle} (blocked : statesOf kernel.sched idx = .blocked ep) :
    ∃ handle ∈ registered, statesOf kernel.sched (slotOf handle) = .blocked ep := by
  have orderly := idled.intact.orderly
  have busy : (rosterOf kernel.sched).states idx ≠ .idle := by
    rw [show (rosterOf kernel.sched).states idx = _ from blocked]
    simp
  rcases orderly.known busy with ⟨handle, known⟩
  have slot := (orderly.home idx handle known).1
  refine ⟨handle, (idled.knows handle).mpr ?_, ?_⟩
  · rw [slot]
    exact known
  · rw [slot]
    exact blocked

theorem waiter_law_step {label : KernelLabel Party Machine}
    (idled : Idled idler registered kernel)
    (attributed : Attributed (rosterOf kernel.sched) kernel.world)
    (step : IdledStep cpu build owner idler kernel label after)
    (fresh : ¬ RetriesIdle (viewOf kernel) label.event) :
    WaiterLaw registered ⟨kernel, label, after⟩ := by
  have orderly := idled.intact.orderly
  have moved := (step.1.1.view_step idled.intact).2
  have next := moved.attributed step.1.2 orderly idled.coupled step.2 idled.idler fresh attributed
  refine ⟨?_, ?_, ?_⟩
  · intro ep waiting
    rcases next ep waiting with ⟨idx, blocked⟩
    exact (step.idled idled).blocked_registered blocked
  · intro party epCap msg transfer isSend delivers
    rw [isSend] at moved
    exact moved.delivered_moves delivers orderly idled.coupled attributed
  · intro current party epCap isCurrent receive refused
    cases isCurrent.symm.trans idled.intact.shows.current
    exact moved.refused_blocked receive refused orderly idled.coupled attributed

theorem retries_breaks {label : KernelLabel Party Machine}
    (idled : Idled idler registered kernel)
    (step : IdledStep cpu build owner idler kernel label after)
    (retries : RetriesIdle (viewOf kernel) label.event) :
    ¬ WaiterLaw registered ⟨kernel, label, after⟩ := by
  intro law
  have moved := (step.1.1.view_step idled.intact).2
  apply moved.orphaned retries idled.coupled
  intro ep waiting
  rcases law.known ep waiting with ⟨handle, _, blocked⟩
  exact ⟨slotOf handle, blocked⟩

end Runs

section Boot

variable [DecidableEq Party] (cpu : Cpu Context Machine) (build : Build) (machine : Machine)
  (owner : Index → Party)

/-- With a task that only yields, a run of the bridge functions obeys the law at every
transition exactly if no receiver ever goes on at Phase 3 while its endpoint is idle. -/
theorem waiter_law_iff {world : World Party} (fresh : Fresh world)
    {registrations : List Registration} {idler : TaskHandle}
    (registrable : Registrable (registrations.map Registration.handle))
    (isRegistered : idler ∈ registrations.map Registration.handle) :
    ∃ booted, start cpu registrations (powerOn cpu world machine) = .ok () booted ∧
      (∀ ep, stateAt booted.world.queues ep ≠ .recvWaiting) ∧
      ∀ trace after, Run (IdledStep cpu build owner idler) booted trace after →
        ((∀ taken ∈ trace, ¬ RetriesIdle (viewOf taken.before) taken.label.event) ↔
          ∀ taken ∈ trace, WaiterLaw (registrations.map Registration.handle) taken) := by
  rcases boot_run cpu world machine (anyone_of_registered isRegistered) registrable with
    ⟨booted, first, rest, ran, handles, intact, shown⟩
  rw [handles] at registrable isRegistered ⊢
  have idled := idled_at_boot fresh registrable isRegistered intact shown
  have quiet : ∀ ep, stateAt booted.world.queues ep ≠ .recvWaiting := by
    intro ep waiting
    rw [show booted.world = _ from congrArg View.world shown] at waiting
    cases (states_of_fresh fresh ep).symm.trans waiting
  refine ⟨booted, ran, quiet, ?_⟩
  intro trace after run
  constructor
  · intro neverIdle taken member
    rcases run_member run member with ⟨front, early, step, back, rfl⟩
    apply waiter_law_step (idled_of_run idled early) _ step (neverIdle taken member)
    apply attributed_of_run idled (fun ep waiting => absurd waiting (quiet ep)) early
    intro other inFront
    exact neverIdle other (by simp [inFront])
  · intro obeyed taken member retries
    rcases run_member run member with ⟨front, early, step, _⟩
    exact retries_breaks (idled_of_run idled early) step retries (obeyed taken member)

end Boot

/-! ## A retry on an idle endpoint -/

section Scripts

variable [DecidableEq Party] {cpu : Cpu Context Machine} {build : Build} {owner : Index → Party}
  (idler : TaskHandle)

def idles (cpu : Cpu Context Machine) (build : Build) :
    List (Cue Party) → Kernel Party Context Machine → Bool
  | [], _ => true
  | cue :: rest, kernel =>
      let free : Bool :=
        match cue with
        | .call call => (rosterOf kernel.sched).current ≠ idler ∨ call = .yieldNow
        | .resume => true
      free && idles cpu build rest (cueAfter cpu build kernel cue)

variable {idler}

theorem idles_only_yields {cue : Cue Party} {rest : List (Cue Party)}
    {kernel : Kernel Party Context Machine}
    (ready : idles idler cpu build (cue :: rest) kernel = true) :
    OnlyYields idler (rosterOf kernel.sched).current
      (cueLabel cpu build kernel cue).event := by
  rcases Bool.and_eq_true_iff.mp ready with ⟨free, _⟩
  intro isIdler call called
  cases cue with
  | resume => cases called
  | call made =>
      cases called
      have either : (rosterOf kernel.sched).current ≠ idler ∨ call = .yieldNow := by
        simpa using free
      exact either.resolve_left fun different => different isIdler

theorem idled_played_run {cues : List (Cue Party)} {kernel : Kernel Party Context Machine}
    (ready : allPlayable cpu build owner cues kernel = true)
    (idling : idles idler cpu build cues kernel = true) :
    Run (IdledStep cpu build owner idler) kernel (played cpu build cues kernel)
      (playedTo cpu build cues kernel) := by
  induction cues generalizing kernel with
  | nil => exact .nil
  | cons cue rest ih =>
      rcases Bool.and_eq_true_iff.mp ready with ⟨first, later⟩
      rcases Bool.and_eq_true_iff.mp idling with ⟨_, laterIdle⟩
      have step : IdledStep cpu build owner idler kernel (cueLabel cpu build kernel cue)
          (cueAfter cpu build kernel cue) := ⟨playable_step first, idles_only_yields idling⟩
      exact run_append (.snoc .nil step) (ih later laterIdle)

end Scripts

def quartet : PlainKernel := bootWith [taskIn 0, taskIn 1, taskIn 2, taskIn 3]

theorem quartet_registrable :
    Registrable ([taskIn 0, taskIn 1, taskIn 2, taskIn 3].map Registration.handle) :=
  ⟨by decide, by decide⟩

def takenAway : List (Cue Index) :=
  [recvBy 0, sendBy 1 7, recvBy 2, yieldBy, yieldBy, .resume]

theorem taken_away_run :
    Run (IdledStep plainCpu ⟨true⟩ id ⟨⟨3, 0⟩⟩) quartet (played plainCpu ⟨true⟩ takenAway quartet)
      (playedTo plainCpu ⟨true⟩ takenAway quartet) :=
  idled_played_run (by decide +kernel) (by decide +kernel)

/-- The endpoint is left waiting and no task is blocked. -/
theorem waiting_without_waiter :
    start plainCpu [taskIn 0, taskIn 1, taskIn 2, taskIn 3]
        (powerOn plainCpu sharedWorld (0, 0)) = .ok () quartet ∧
      Run (IdledStep plainCpu ⟨true⟩ id ⟨⟨3, 0⟩⟩) quartet
        (played plainCpu ⟨true⟩ takenAway quartet)
        (playedTo plainCpu ⟨true⟩ takenAway quartet) ∧
      stateAt (playedTo plainCpu ⟨true⟩ takenAway quartet).world.queues ⟨⟨0, 0⟩⟩ =
        .recvWaiting ∧
      ∀ idx < 4, statesOf (playedTo plainCpu ⟨true⟩ takenAway quartet).sched idx = .ready :=
  ⟨(boots_with (by simp) quartet_registrable).1, taken_away_run, by decide +kernel, by decide +kernel⟩

theorem waiter_law_iff_delivery :
    statesOf (playedTo plainCpu ⟨true⟩ [recvBy 0] quartet).sched 0 = .blocked ⟨⟨0, 0⟩⟩ ∧
      statesOf (playedTo plainCpu ⟨true⟩ [recvBy 0, sendBy 1 7] quartet).sched 0 = .ready ∧
      ∀ taken ∈ played plainCpu ⟨true⟩ [recvBy 0, sendBy 1 7] quartet,
        WaiterLaw [⟨⟨0, 0⟩⟩, ⟨⟨1, 0⟩⟩, ⟨⟨2, 0⟩⟩, ⟨⟨3, 0⟩⟩] taken := by
  rcases waiter_law_iff plainCpu ⟨true⟩ (0, 0) id shared_world_fresh quartet_registrable
    (show (⟨⟨3, 0⟩⟩ : TaskHandle) ∈ _ by decide) with ⟨reached, ran, _, exact_law⟩
  have booted : quartet = reached := booted_with ran
  rw [← booted] at exact_law
  have run : Run (IdledStep plainCpu ⟨true⟩ id ⟨⟨3, 0⟩⟩) quartet
      (played plainCpu ⟨true⟩ [recvBy 0, sendBy 1 7] quartet)
      (playedTo plainCpu ⟨true⟩ [recvBy 0, sendBy 1 7] quartet) :=
    idled_played_run (by decide +kernel) (by decide +kernel)
  refine ⟨by decide +kernel, by decide +kernel, ?_⟩
  apply (exact_law _ _ run).mp
  intro taken member retries
  have calls : ∀ other ∈ played plainCpu ⟨true⟩ [recvBy 0, sendBy 1 7] quartet,
      other.label.event ≠ .resume := by
    simp [played, cueLabel, recvBy, sendBy, Cue.event]
  exact calls taken member retries.1

end Tyrne.Sched
