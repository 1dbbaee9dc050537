import Tyrne.Exchange

/-!
# An endpoint open to everybody

An endpoint on which every party can send and receive, and on which no capability
travels: what a send or a receive does is decided by the state of the endpoint alone, and so
is which way a bridge call takes.
-/

namespace Tyrne.Sched

open Tyrne.Lib.Effect
open Tyrne.Cap
open Tyrne.ObjArena (Live)
open Tyrne.Ipc
open Tyrne.System (World seenBy putBack)

set_option autoImplicit false

variable {Party Machine : Type}

/-- An endpoint in this state, on which every party can send and receive. -/
structure Wired (world : World Party) (ep : EndpointHandle) (epCaps : Party → CapHandle)
    (state : EndpointState) : Prop where
  steady : Steady world
  live : Live world.arena ep.slot
  sends : ∀ party, Names (world.tables party) (epCaps party) .send ep
  receives : ∀ party, Names (world.tables party) (epCaps party) .recv ep
  state : endpointState world ep = state

section Wired

variable [DecidableEq Party] {build : Build} {world after : World Party} {ep : EndpointHandle}
  {epCaps : Party → CapHandle} {state next : EndpointState} {party : Party} {msg : Message}

omit [DecidableEq Party] in
theorem Wired.moves (wired : Wired world ep epCaps state) (steady : Steady after)
    (arena : after.arena = world.arena) (tables : after.tables = world.tables)
    (states : endpointState after = Function.update (endpointState world) ep next) :
    Wired after ep epCaps next where
  steady := steady
  live := by
    rw [arena]
    exact wired.live
  sends := by
    rw [tables]
    exact wired.sends
  receives := by
    rw [tables]
    exact wired.receives
  state := by rw [states, Function.update_self]

theorem tables_kept (own : after.tables party = world.tables party)
    (others : ∀ other, other ≠ party → after.tables other = world.tables other) :
    after.tables = world.tables := by
  funext other
  by_cases same : other = party
  · rw [same, own]
  · exact others other same

theorem Wired.recv_waits (wired : Wired world ep epCaps .idle)
    {result : Except IpcError RecvOutcome}
    (receives : Receives build world party (epCaps party) result after) :
    result = .ok .pending ∧ Wired after ep epCaps .recvWaiting := by
  have sound := wired.steady.sound
  have idle := wired.state
  rcases receives.step sound with ⟨final, step, moved⟩
  have arena : after.arena = world.arena := by
    rw [moved]
    exact step.touches.arena
  have pending : result = .ok .pending := by
    cases step with
    | refused unnamed => exact absurd wired.live (unnamed ep (wired.receives party))
    | full names _ parked _ =>
        cases names_unique names (wired.receives party)
        rw [show stateAt (seenBy world party).queues ep = .idle from idle] at parked
        cases parked
    | received names _ stored _ =>
        cases names_unique names (wired.receives party)
        rw [show stateAt (seenBy world party).queues ep = .idle from idle] at stored
        cases stored
    | pending _ _ _ => rfl
    | busy names _ waiting =>
        cases names_unique names (wired.receives party)
        cases idle.symm.trans waiting
  refine ⟨pending, ?_⟩
  rw [pending] at receives
  rcases receives.pends wired.steady with ⟨home, names, _, _, tables, states⟩
  cases names_unique names (wired.receives party)
  exact wired.moves (receives.steady wired.steady) arena tables states

theorem Wired.recv_takes (wired : Wired world ep epCaps state)
    (holds : state.stored = some (msg, none)) {result : Except IpcError RecvOutcome}
    (receives : Receives build world party (epCaps party) result after) :
    result = .ok (.received msg none) ∧ Wired after ep epCaps .idle := by
  have sound := wired.steady.sound
  have held : (stateAt (seenBy world party).queues ep).stored = some (msg, none) := by
    have same : stateAt (seenBy world party).queues ep = state := wired.state
    rw [same, holds]
  rcases receives.step sound with ⟨final, step, moved⟩
  have arena : after.arena = world.arena := by
    rw [moved]
    exact step.touches.arena
  have taken : result = .ok (.received msg none) := by
    cases step with
    | refused unnamed => exact absurd wired.live (unnamed ep (wired.receives party))
    | full names _ parked _ =>
        cases names_unique names (wired.receives party)
        rw [EndpointState.parked, held] at parked
        cases parked
    | received names _ stored installs =>
        cases names_unique names (wired.receives party)
        cases held.symm.trans stored
        rw [installs.1]
    | pending names _ idle =>
        cases names_unique names (wired.receives party)
        rw [idle] at held
        cases held
    | busy names _ waiting =>
        cases names_unique names (wired.receives party)
        rw [waiting] at held
        cases held
  refine ⟨taken, ?_⟩
  rw [taken] at receives
  rcases receives.takes wired.steady with ⟨home, cap, names, _, stored, installs, states⟩
  cases names_unique names (wired.receives party)
  cases held.symm.trans stored
  have tables := tables_kept installs.2 fun other different => receives.other_tables different
  exact wired.moves (receives.steady wired.steady) arena tables states

omit [DecidableEq Party] in
theorem checks_nothing (world : World Party) (party : Party) :
    checkTransfer none (world.tables party) = .ok () (world.tables party) := rfl

theorem Wired.sent (wired : Wired world ep epCaps state) {result : Except IpcError SendOutcome}
    {outcome : SendOutcome} {held : EndpointState}
    (ran : ipcSend build (epCaps party) msg none (seenBy world party) = .ok outcome
      { seenBy world party with queues := setState world.queues ep held })
    (sends : Sends build world party (epCaps party) msg none result after) :
    result = .ok outcome ∧ Wired after ep epCaps held := by
  have steady := sends.steady wired.steady
  rcases sends with ⟨final, returned, rfl⟩
  rw [ran] at returned
  cases result with
  | error error => cases returned
  | ok value =>
      cases returned
      refine ⟨rfl, wired.moves steady rfl ?_ (System.states_set wired.steady.occupied wired.live _)⟩
      exact Function.update_eq_self _ _

theorem Wired.send_delivers (wired : Wired world ep epCaps .recvWaiting)
    {result : Except IpcError SendOutcome}
    (sends : Sends build world party (epCaps party) msg none result after) :
    result = .ok .delivered ∧ Wired after ep epCaps (.recvComplete msg none) := by
  have drained := wired.steady.sound.attended.drained ep wired.live
  have ran := @ipc_send_delivers (seenBy world party) (epCaps party) none ep none
    (world.tables party) (wired.sends party) wired.live drained wired.state
    (checks_nothing world party) ⟨rfl, rfl⟩ build msg
  exact wired.sent ran sends

theorem Wired.send_enqueues (wired : Wired world ep epCaps .idle)
    {result : Except IpcError SendOutcome}
    (sends : Sends build world party (epCaps party) msg none result after) :
    result = .ok .enqueued ∧ Wired after ep epCaps (.sendPending msg none) := by
  have drained := wired.steady.sound.attended.drained ep wired.live
  have ran := @ipc_send_enqueues (seenBy world party) (epCaps party) none ep none
    (world.tables party) (wired.sends party) wired.live drained wired.state
    (checks_nothing world party) ⟨rfl, rfl⟩ build msg
  exact wired.sent ran sends

end Wired

/-! ## Bridge calls -/

section Calls

variable [DecidableEq Party] {build : Build} {view next : View Party} {ep : EndpointHandle}
  {epCaps : Party → CapHandle} {state : EndpointState} {result : Except SchedError Reply}

theorem yield_switches (step : @ViewStep Party Machine _ build view (.call .yieldNow) result next)
    (others : view.roster.ready ≠ []) :
    result = .ok .switched ∧ next.roster = view.roster.rotate ∧ next.world = view.world ∧
      ∃ guard, next.frames =
        Function.update view.frames (slotOf view.roster.current) (.inYield guard) := by
  cases step with
  | @yielded guard rest =>
      rcases List.exists_cons_of_ne_nil others with ⟨first, behind, line⟩
      simp only [View.turned, View.turn, line, true_and]
      exact ⟨guard, rfl⟩

theorem recv_switches {party : Party}
    (wired : Wired view.world ep epCaps .idle)
    (step : @ViewStep Party Machine _ build view
      (.call (.ipcRecvAndYield party (epCaps party))) result next)
    (others : view.roster.ready ≠ []) :
    result = .ok .switched ∧ next.roster = view.roster.block ep ∧
      Wired next.world ep epCaps .recvWaiting ∧
      ∃ guard, next.frames = Function.update view.frames (slotOf view.roster.current)
        (.inRecv guard party (epCaps party)) := by
  cases step with
  | received rest receives done => exact absurd (wired.recv_waits receives).1 done
  | deadlocked rest receives alone => exact absurd alone others
  | @blocked _ _ _ _ guard rest resolves receives _ =>
      rw [System.endpoint_at_named (wired.receives party)] at resolves
      cases resolves
      exact ⟨rfl, rfl, (wired.recv_waits receives).2, guard, rfl⟩

theorem recv_returns {party : Party} {msg : Message}
    (wired : Wired view.world ep epCaps state)
    (holds : state.stored = some (msg, none))
    (step : @ViewStep Party Machine _ build view
      (.call (.ipcRecvAndYield party (epCaps party))) result next) :
    result = .ok (.received (.received msg none)) ∧ next.roster = view.roster ∧
      Wired next.world ep epCaps .idle ∧ next.frames = view.frames := by
  cases step with
  | received rest receives done =>
      rcases wired.recv_takes holds receives with ⟨same, idle⟩
      rw [same]
      exact ⟨rfl, rfl, idle, rfl⟩
  | deadlocked rest receives alone => cases (wired.recv_takes holds receives).1
  | blocked rest resolves receives others => cases (wired.recv_takes holds receives).1

theorem collect_returns {party : Party} {msg : Message} {guard : IrqState}
    (wired : Wired view.world ep epCaps state)
    (holds : state.stored = some (msg, none))
    (suspended : view.frame = .inRecv guard party (epCaps party))
    (step : @ViewStep Party Machine _ build view .resume result next) :
    result = .ok (.received (.received msg none)) ∧ next.roster = view.roster ∧
      Wired next.world ep epCaps .idle ∧
      next.frames = Function.update view.frames (slotOf view.roster.current) .outside := by
  cases step with
  | backFromYield inYield => cases suspended.symm.trans inYield
  | backFromSend inSend => cases suspended.symm.trans inSend
  | collected inRecv receives done =>
      cases suspended.symm.trans inRecv
      rcases wired.recv_takes holds receives with ⟨same, idle⟩
      rw [same]
      exact ⟨rfl, rfl, idle, rfl⟩
  | pendingAfterResume inRecv receives =>
      cases suspended.symm.trans inRecv
      cases (wired.recv_takes holds receives).1

theorem send_switches {party : Party} {msg : Message}
    (wired : Wired view.world ep epCaps .recvWaiting)
    (step : @ViewStep Party Machine _ build view
      (.call (.ipcSendAndYield party (epCaps party) msg none)) result next)
    (others : (view.roster.wake ep).ready ≠ []) :
    result = .ok .switched ∧ next.roster = (view.roster.wake ep).rotate ∧
      Wired next.world ep epCaps (.recvComplete msg none) ∧
      ∃ guard, next.frames =
        Function.update view.frames (slotOf view.roster.current) (.inSend guard .delivered) := by
  cases step with
  | sent rest sends quiet => exact absurd (wired.send_delivers sends).1 quiet
  | @delivered _ _ _ _ _ world woken guard rest resolves sends wakes =>
      rw [System.endpoint_at_named (wired.sends party)] at resolves
      cases resolves
      subst wakes
      rcases List.exists_cons_of_ne_nil others with ⟨first, behind, line⟩
      simp only [View.turned, View.turn, line, Roster.current_wake, true_and]
      exact ⟨(wired.send_delivers sends).2, guard, rfl⟩

theorem send_returns {party : Party} {msg : Message}
    (wired : Wired view.world ep epCaps .idle)
    (step : @ViewStep Party Machine _ build view
      (.call (.ipcSendAndYield party (epCaps party) msg none)) result next) :
    result = .ok (.sent .enqueued) ∧ next.roster = view.roster ∧
      Wired next.world ep epCaps (.sendPending msg none) ∧
      next.frames = view.frames := by
  cases step with
  | sent rest sends quiet =>
      rcases wired.send_enqueues sends with ⟨same, pending⟩
      rw [same]
      exact ⟨rfl, rfl, pending, rfl⟩
  | delivered rest resolves sends wakes => cases (wired.send_enqueues sends).1

theorem sent_returns {guard : IrqState} {outcome : SendOutcome}
    (suspended : view.frame = .inSend guard outcome)
    (step : @ViewStep Party Machine _ build view .resume result next) :
    result = .ok (.sent outcome) ∧ next = view.back := by
  cases step with
  | backFromYield inYield => cases suspended.symm.trans inYield
  | backFromSend inSend =>
      cases suspended.symm.trans inSend
      exact ⟨rfl, rfl⟩
  | collected inRecv _ _ => cases suspended.symm.trans inRecv
  | pendingAfterResume inRecv _ => cases suspended.symm.trans inRecv

end Calls

end Tyrne.Sched
