import Tyrne.Script

/-!
# No wake-up is lost

The scheduler records who waits for an endpoint and the IPC queues record that
somebody does. In every run in which no endpoint is destroyed the two agree in one
direction: where a task is blocked on an endpoint, the endpoint waits for a receiver,
and nobody else is blocked on it. So a send that succeeds there is delivered, and
wakes that task.
-/

namespace Tyrne.Sched

open Tyrne.Lib.Effect
open Tyrne.Lib.Runs
open Tyrne.Cap
open Tyrne.Ipc
open Tyrne.System (World Fresh endpointAt endpoint_at_named)

set_option autoImplicit false

variable {Party Context Machine : Type}

/-! ## Single steps -/

/-- The blocked tasks of a roster against the states of the endpoints. -/
structure Coupled (roster : Roster) (world : World Party) : Prop where
  steady : Steady world
  waiting : ∀ idx ep, roster.states idx = .blocked ep → endpointState world ep = .recvWaiting
  single : ∀ left right ep, roster.states left = .blocked ep →
    roster.states right = .blocked ep → left = right

section Coupled

variable {roster : Roster} {world after : World Party}

theorem Coupled.kept (coupled : Coupled roster world) {other : Roster} (steady : Steady after)
    (blocks : ∀ idx ep, other.states idx = .blocked ep → roster.states idx = .blocked ep)
    (waits : ∀ idx ep, other.states idx = .blocked ep → endpointState world ep = .recvWaiting →
      endpointState after ep = .recvWaiting) : Coupled other after where
  steady := steady
  waiting := fun idx ep blocked => waits idx ep blocked
    (coupled.waiting idx ep (blocks idx ep blocked))
  single := fun left right ep first second =>
    coupled.single left right ep (blocks left ep first) (blocks right ep second)

theorem Coupled.wake_states (coupled : Coupled roster world) (orderly : Orderly roster)
    {ep on : EndpointHandle} {idx : Index} (blocked : (roster.wake ep).states idx = .blocked on) :
    roster.states idx = .blocked on ∧ on ≠ ep := by
  cases found : roster.waiterOn ep with
  | none =>
      rw [wake_none found] at blocked
      refine ⟨blocked, ?_⟩
      intro same
      subst same
      rcases orderly.waiter_exists blocked with ⟨waiter, some_found⟩
      rw [found] at some_found
      cases some_found
  | some waiter =>
      rcases orderly.wake_some found with ⟨handle, known, woken⟩
      rw [woken, Roster.rejoin] at blocked
      by_cases same : idx = waiter
      · simp [same] at blocked
      · simp only [Function.update_of_ne same] at blocked
        refine ⟨blocked, ?_⟩
        intro here
        subst here
        exact same (coupled.single idx waiter on blocked (waiter_blocked found))

theorem Coupled.delivered (coupled : Coupled roster world) (orderly : Orderly roster)
    {ep : EndpointHandle} {state : EndpointState} (steady : Steady after)
    (states : endpointState after = Function.update (endpointState world) ep state) :
    Coupled (roster.wake ep) after := by
  apply coupled.kept steady
  · intro idx on blocked
    exact (coupled.wake_states orderly blocked).1
  · intro idx on blocked waiting
    rw [states, Function.update_of_ne (coupled.wake_states orderly blocked).2]
    exact waiting

theorem Coupled.blocked (coupled : Coupled roster world) {ep : EndpointHandle}
    (steady : Steady after) (idle : endpointState world ep = .idle)
    (states : endpointState after = Function.update (endpointState world) ep .recvWaiting)
    (others : roster.ready ≠ []) : Coupled (roster.block ep) after := by
  have elsewhere : ∀ idx on, roster.states idx = .blocked on → on ≠ ep := by
    intro idx on blocked same
    have waiting := coupled.waiting idx on blocked
    rw [same, idle] at waiting
    cases waiting
  have cases : ∀ idx on, (roster.block ep).states idx = .blocked on →
      (idx = slotOf roster.current ∧ on = ep) ∨ roster.states idx = .blocked on := by
    intro idx on blocked
    rw [Roster.states_block _ _ others] at blocked
    by_cases same : idx = slotOf roster.current
    · rw [same, Function.update_self] at blocked
      cases blocked
      exact Or.inl ⟨same, rfl⟩
    · rw [Function.update_of_ne same] at blocked
      exact Or.inr blocked
  refine ⟨steady, ?_, ?_⟩
  · intro idx on blocked
    rw [states]
    rcases cases idx on blocked with ⟨_, rfl⟩ | before
    · exact Function.update_self _ _ _
    · rw [Function.update_of_ne (elsewhere idx on before)]
      exact coupled.waiting idx on before
  · intro left right on first second
    rcases cases left on first with ⟨leftSlot, leftOn⟩ | leftBefore
    · rcases cases right on second with ⟨rightSlot, _⟩ | rightBefore
      · rw [leftSlot, rightSlot]
      · exact absurd leftOn (elsewhere right on rightBefore)
    · rcases cases right on second with ⟨_, rightOn⟩ | rightBefore
      · exact absurd rightOn (elsewhere left on leftBefore)
      · exact coupled.single left right on leftBefore rightBefore

end Coupled

theorem View.states_turn (view : View Party) (suspend : Frame Party) :
    (view.turn suspend).roster.states = view.roster.states := by
  cases line : view.roster.ready with
  | nil => simp only [View.turn, line]
  | cons next rest => simp only [View.turn, line, Roster.states_rotate]

theorem View.world_turn (view : View Party) (suspend : Frame Party) :
    (view.turn suspend).world = view.world := by
  cases line : view.roster.ready with
  | nil => simp only [View.turn, line]
  | cons next rest => simp only [View.turn, line]

theorem View.runnable_turn (view : View Party) (suspend : Frame Party) :
    (view.turn suspend).roster.runnable = view.roster.ready ++ [view.roster.current] := by
  cases line : view.roster.ready with
  | nil => simp [View.turn, Roster.runnable, line]
  | cons next rest => simp [View.turn, Roster.rotate, Roster.runnable, line]

theorem View.turned_others {view : View Party} (others : view.roster.ready ≠ []) (alone : Reply) :
    view.turned alone = .switched := by
  cases line : view.roster.ready with
  | nil => exact absurd line others
  | cons next rest => simp only [View.turned, line]

theorem View.frames_turn {view : View Party} (others : view.roster.ready ≠ [])
    (suspend : Frame Party) :
    (view.turn suspend).frames =
      Function.update view.frames (slotOf view.roster.current) suspend := by
  cases line : view.roster.ready with
  | nil => exact absurd line others
  | cons next rest => simp only [View.turn, line]

theorem Coupled.turn {view : View Party} (coupled : Coupled view.roster view.world)
    (suspend : Frame Party) :
    Coupled (view.turn suspend).roster (view.turn suspend).world := by
  rw [View.world_turn]
  apply coupled.kept coupled.steady
  · intro idx ep blocked
    rw [View.states_turn] at blocked
    exact blocked
  · intro idx ep _ waiting
    exact waiting

section Steps

variable [DecidableEq Party] {build : Build} {view next : View Party} {own : Party}
  {event : Event Party Machine} {result : Except SchedError Reply}

theorem ViewStep.coupled (step : ViewStep build view event result next)
    (behaves : Behaves build own view.world event) (orderly : Orderly view.roster)
    (coupled : Coupled view.roster view.world) : Coupled next.roster next.world := by
  have steady := coupled.steady
  cases step with
  | yielded rest => exact coupled.turn _
  | sent rest sends quiet =>
      exact coupled.kept (sends.steady steady) (fun _ _ blocked => blocked)
        fun _ _ _ waiting => (sends.keeps_busy steady quiet (by simp [waiting])).trans waiting
  | @delivered party epCap msg transfer ep world woken guard rest resolves sends wakes =>
      rcases sends.delivers steady with ⟨home, owned, names, live, waiting, takes, states⟩
      cases (endpoint_at_named names).symm.trans resolves
      have awake := coupled.delivered orderly (sends.steady steady) states
      subst wakes
      exact Coupled.turn awake _
  | received rest receives done =>
      exact coupled.kept (receives.steady steady) (fun _ _ blocked => blocked)
        fun _ _ _ waiting => receives.keeps_waiting steady waiting
  | deadlocked rest receives alone =>
      exact coupled.kept (receives.steady steady) (fun _ _ blocked => blocked)
        fun _ _ _ waiting => receives.keeps_waiting steady waiting
  | @blocked party epCap ep world guard rest resolves receives others =>
      rcases receives.pends steady with ⟨home, names, live, idle, tables, states⟩
      cases (endpoint_at_named names).symm.trans resolves
      exact coupled.blocked (receives.steady steady) idle states others
  | backFromYield suspended => exact coupled
  | backFromSend suspended => exact coupled
  | collected suspended receives done =>
      exact coupled.kept (receives.steady steady) (fun _ _ blocked => blocked)
        fun _ _ _ waiting => receives.keeps_waiting steady waiting
  | pendingAfterResume suspended receives =>
      exact coupled.kept (receives.steady steady) (fun _ _ blocked => blocked)
        fun _ _ _ waiting => receives.keeps_waiting steady waiting
  | elsewhere rest =>
      rcases behaves.elsewhere steady with ⟨after, states, _, _⟩
      exact coupled.kept after (fun _ _ blocked => blocked)
        fun idx ep _ waiting => (congrFun states ep).trans waiting

/-- A send on an endpoint a task is blocked on, if it succeeds, wakes that task: it
joins the end of the line, the caller follows it, and the first in line takes over. -/
theorem ViewStep.wakes {party : Party} {epCap : CapHandle} {msg : Message}
    {transfer : Option CapHandle} {reply : Reply} {ep : EndpointHandle} {idx : Index}
    (step : ViewStep build view
      (.call (.ipcSendAndYield party epCap msg transfer) : Event Party Machine) (.ok reply) next)
    (orderly : Orderly view.roster) (coupled : Coupled view.roster view.world)
    (names : endpointAt (view.world.tables party) epCap = some ep)
    (blocked : view.roster.states idx = .blocked ep) :
    ∃ waiter guard, view.roster.handles idx = some waiter ∧ reply = .switched ∧
      next.roster.states = Function.update view.roster.states idx .ready ∧
      next.roster.runnable = view.roster.ready ++ [waiter, view.roster.current] ∧
      next.frames (slotOf view.roster.current) = .inSend guard .delivered := by
  have steady := coupled.steady
  have waiting := coupled.waiting idx ep blocked
  generalize reported : (Except.ok reply : Except SchedError Reply) = result at step
  cases step with
  | @sent _ _ _ _ result world rest sends quiet =>
      cases result with
      | error error => cases reported
      | ok outcome =>
          cases outcome with
          | delivered => exact absurd rfl quiet
          | enqueued =>
              rcases sends.enqueues steady with ⟨home, owned, named, idle, _⟩
              cases (endpoint_at_named named).symm.trans names
              rw [waiting] at idle
              cases idle
  | @delivered _ _ _ _ home world woken guard rest resolves sends wakes =>
      cases resolves.symm.trans names
      rcases orderly.waiter_exists blocked with ⟨found, search⟩
      cases coupled.single found idx ep (waiter_blocked search) blocked
      rcases orderly.wake_some search with ⟨waiter, known, rejoined⟩
      rw [rejoined] at wakes
      subst wakes
      have others : (view.roster.rejoin idx waiter).ready ≠ [] := by
        simp [Roster.rejoin]
      refine ⟨waiter, guard, known, ?_, ?_, ?_, ?_⟩
      · cases reported
        exact View.turned_others others _
      · rw [View.states_turn]
        rfl
      · rw [View.runnable_turn]
        simp [Roster.rejoin]
      · rw [View.frames_turn others]
        exact Function.update_self _ _ _

end Steps

/-! ## Whole runs -/

section Runs

variable [DecidableEq Party]

variable {cpu : Cpu Context Machine} {build : Build} {owner : Index → Party}
  {kernel after : Kernel Party Context Machine}
  {trace : KernelTrace Party Context Machine}

theorem coupled_of_run (intact : Intact kernel)
    (coupled : Coupled (rosterOf kernel.sched) kernel.world)
    (run : Run (BridgeStep cpu build owner) kernel trace after) :
    Intact after ∧ Coupled (rosterOf after.sched) after.world := by
  induction run with
  | nil => exact ⟨intact, coupled⟩
  | snoc earlier step ih =>
      rcases ih with ⟨reached, held⟩
      rcases step.1.view_step reached with ⟨next, moved⟩
      exact ⟨next, moved.coupled step.2 reached.orderly held⟩

/-- What a successful send on an endpoint does while a task is blocked there. -/
def WakesWaiter
    (taken : Transition (Kernel Party Context Machine) (KernelLabel Party Machine)) : Prop :=
  ∀ party epCap msg transfer reply ep idx,
    taken.label.event = .call (.ipcSendAndYield party epCap msg transfer) →
    taken.label.result = .ok reply →
    endpointAt (taken.before.world.tables party) epCap = some ep →
    statesOf taken.before.sched idx = .blocked ep →
    ∃ waiter caller guard, handlesOf taken.before.sched idx = some waiter ∧
      taken.before.sched.current = some caller ∧ reply = .switched ∧
      statesOf taken.after.sched = Function.update (statesOf taken.before.sched) idx .ready ∧
      taken.after.sched.current.toList ++ lineOf taken.after.sched.ready =
        lineOf taken.before.sched.ready ++ [waiter, caller] ∧
      taken.after.frames (slotOf caller) = .inSend guard .delivered

omit [DecidableEq Party] in
theorem coupled_at_boot {world : World Party} (fresh : Fresh world) {first : TaskHandle}
    {rest : List TaskHandle}
    (shown : viewOf kernel = ⟨startingRoster first rest, world, fun _ => .outside⟩) :
    Coupled (rosterOf kernel.sched) kernel.world := by
  rw [show rosterOf kernel.sched = _ from congrArg View.roster shown,
    show kernel.world = _ from congrArg View.world shown]
  refine ⟨steady_of_fresh fresh, ?_, ?_⟩
  · intro idx ep blocked
    exact absurd blocked (starting_not_blocked first rest idx ep)
  · intro left right ep blocked
    exact absurd blocked (starting_not_blocked first rest left ep)

theorem wakes_waiter (intact : Intact kernel)
    (coupled : Coupled (rosterOf kernel.sched) kernel.world)
    {label : KernelLabel Party Machine} (step : KernelStep cpu build kernel label after) :
    WakesWaiter ⟨kernel, label, after⟩ := by
  intro party epCap msg transfer reply ep idx isSend succeeded names blocked
  rcases step.view_step intact with ⟨next, moved⟩
  rw [isSend, succeeded] at moved
  rcases moved.wakes intact.orderly coupled names blocked with
    ⟨waiter, guard, known, reported, states, order, frame⟩
  refine ⟨waiter, _, guard, known, intact.shows.current, reported, states, ?_, frame⟩
  rw [show after.sched.current = some _ from next.shows.current]
  exact order

end Runs

section Boot

variable [DecidableEq Party] (cpu : Cpu Context Machine) (build : Build) (machine : Machine)
  (owner : Index → Party)

/-- In every state a run of the bridge functions reaches, a task that is blocked on an
endpoint is the only one there, the endpoint waits for a receiver and stores no
message; and every send on such an endpoint that succeeds wakes that task. -/
theorem no_lost_wake_up {world : World Party} (fresh : Fresh world)
    {registrations : List Registration} (anyone : registrations ≠ [])
    (registrable : Registrable (registrations.map Registration.handle)) :
    ∃ booted, start cpu registrations (powerOn cpu world machine) = .ok () booted ∧
      ∀ trace after, Run (BridgeStep cpu build owner) booted trace after →
        (∀ idx ep, statesOf after.sched idx = .blocked ep →
          stateAt after.world.queues ep = .recvWaiting ∧
          (stateAt after.world.queues ep).stored = none ∧
          ∀ other, statesOf after.sched other = .blocked ep → other = idx) ∧
        ∀ taken ∈ trace, WakesWaiter taken := by
  rcases boot_run cpu world machine anyone registrable with
    ⟨booted, first, rest, ran, handles, intact, shown⟩
  have coupled := coupled_at_boot fresh shown
  refine ⟨booted, ran, ?_⟩
  intro trace after run
  constructor
  · intro idx ep blocked
    have held := (coupled_of_run intact coupled run).2
    have waiting := held.waiting idx ep blocked
    refine ⟨waiting, ?_, fun other also => held.single other idx ep also blocked⟩
    rw [show stateAt after.world.queues ep = _ from waiting]
    rfl
  · intro taken member
    rcases run_member run member with ⟨front, early, step, _⟩
    rcases coupled_of_run intact coupled early with ⟨reached, held⟩
    exact wakes_waiter reached held step.1

end Boot

def trio : PlainKernel := bootWith [taskIn 0, taskIn 1, taskIn 2]

theorem trio_registrable :
    Registrable ([taskIn 0, taskIn 1, taskIn 2].map Registration.handle) :=
  ⟨by decide, by decide⟩

theorem no_lost_wake_up_receiver_sender :
    statesOf (playedTo plainCpu ⟨true⟩ [recvBy 0] trio).sched 0 = .blocked ⟨⟨0, 0⟩⟩ ∧
      stateAt (playedTo plainCpu ⟨true⟩ [recvBy 0] trio).world.queues ⟨⟨0, 0⟩⟩ =
        .recvWaiting ∧
      ∀ taken ∈ played plainCpu ⟨true⟩ [recvBy 0, sendBy 1 7] trio, WakesWaiter taken := by
  rcases no_lost_wake_up plainCpu ⟨true⟩ (0, 0) id shared_world_fresh (by simp)
    trio_registrable with ⟨reached, ran, held⟩
  have booted : trio = reached := booted_with ran
  have receives : allPlayable plainCpu ⟨true⟩ id [recvBy 0] trio = true := by decide +kernel
  have sends : allPlayable plainCpu ⟨true⟩ id [recvBy 0, sendBy 1 7] trio = true := by
    decide +kernel
  have blocked : statesOf (playedTo plainCpu ⟨true⟩ [recvBy 0] trio).sched 0 =
      .blocked ⟨⟨0, 0⟩⟩ := by decide +kernel
  rw [← booted] at held
  have first := held _ _ (played_run receives)
  have second := held _ _ (played_run sends)
  exact ⟨blocked, (first.1 0 _ blocked).1, second.2⟩

end Tyrne.Sched
