import Tyrne.Bridge

/-!
# Endpoints seen from the bridge

What the send and the receive inside a bridge function do to the states of all
endpoints at once and to the tables, in worlds in which no busy endpoint has been
destroyed; and what a task may do between its bridge calls.
-/

namespace Tyrne.Sched

open Tyrne.Lib.Effect
open Tyrne.Cap
open Tyrne.CapSpace (TableOp)
open Tyrne.CapTable (CapabilityTable isFull)
open Tyrne.ObjArena
open Tyrne.Ipc
open Tyrne.System

set_option autoImplicit false

variable {Party : Type}

/-- Tables and arena are well formed, and every slot that is not idle belongs to the
endpoint that lives there. -/
structure Steady (world : World Party) : Prop where
  sound : Sound world
  occupied : Attended Busy world.arena world.queues

def endpointState (world : World Party) (ep : EndpointHandle) : EndpointState :=
  stateAt world.queues ep

theorem steady_of_fresh {world : World Party} (fresh : Fresh world) : Steady world :=
  ⟨fresh.sound, fresh.attended (by simp [Busy])⟩

theorem states_of_fresh {world : World Party} (fresh : Fresh world) (ep : EndpointHandle) :
    endpointState world ep = .idle := by
  simp [endpointState, fresh.queues, stateAt, state_in_new]

theorem Steady.live_of_busy {world : World Party} (steady : Steady world) {ep : EndpointHandle}
    (busy : endpointState world ep ≠ .idle) : Live world.arena ep.slot := by
  by_cases own : recordedIn world.queues ep.slot.index = ep.slot.generation
  · rw [endpointState, stateAt, if_pos own] at busy
    have live := steady.occupied ep.slot.index busy
    rw [own] at live
    exact live
  · rw [endpointState, stateAt, if_neg own] at busy
    exact absurd rfl busy

section Operations

variable [DecidableEq Party] {build : Build} {world after : World Party} {party : Party}
  {epCap : CapHandle} {msg : Message} {transfer : Option CapHandle}

theorem Steady.touched (steady : Steady world) {final : IpcState}
    (touches : Touches (seenBy world party) final) : Steady (putBack world party final) :=
  ⟨steady.sound.touched touches,
    @Attended.touched Busy (seenBy world party) _ steady.occupied touches⟩

theorem Sends.step {result : Except IpcError SendOutcome} (sound : Sound world)
    (sends : Sends build world party epCap msg transfer result after) :
    ∃ final, SendStep (seenBy world party) epCap msg transfer result final ∧
      after = putBack world party final := by
  rcases sends with ⟨final, returned, moved⟩
  rcases @ipc_send_returns (seenBy world party) (sound.tables party)
    sound.attended.drained epCap msg transfer with ⟨listed, state, step, always⟩
  rcases (always build).unique returned with ⟨rfl, rfl⟩
  exact ⟨_, step, moved⟩

theorem Receives.step {result : Except IpcError RecvOutcome} (sound : Sound world)
    (receives : Receives build world party epCap result after) :
    ∃ final, RecvStep (seenBy world party) epCap result final ∧
      after = putBack world party final := by
  rcases receives with ⟨final, returned, moved⟩
  rcases @ipc_recv_returns (seenBy world party) (sound.tables party)
    sound.attended.drained epCap with ⟨listed, state, step, always⟩
  rcases (always build).unique returned with ⟨rfl, rfl⟩
  exact ⟨_, step, moved⟩

theorem Sends.sound {result : Except IpcError SendOutcome} (sound : Sound world)
    (sends : Sends build world party epCap msg transfer result after) : Sound after := by
  rcases sends.step sound with ⟨final, step, rfl⟩
  exact sound.touched step.touches

theorem Receives.sound {result : Except IpcError RecvOutcome} (sound : Sound world)
    (receives : Receives build world party epCap result after) : Sound after := by
  rcases receives.step sound with ⟨final, step, rfl⟩
  exact sound.touched step.touches

theorem Sends.steady {result : Except IpcError SendOutcome} (steady : Steady world)
    (sends : Sends build world party epCap msg transfer result after) : Steady after := by
  rcases sends.step steady.sound with ⟨final, step, rfl⟩
  exact steady.touched step.touches

theorem Receives.steady {result : Except IpcError RecvOutcome} (steady : Steady world)
    (receives : Receives build world party epCap result after) : Steady after := by
  rcases receives.step steady.sound with ⟨final, step, rfl⟩
  exact steady.touched step.touches

theorem Sends.other_tables {result : Except IpcError SendOutcome}
    (sends : Sends build world party epCap msg transfer result after) {other : Party}
    (different : other ≠ party) : after.tables other = world.tables other := by
  rcases sends with ⟨final, _, rfl⟩
  exact Function.update_of_ne different _ _

theorem Receives.other_tables {result : Except IpcError RecvOutcome}
    (receives : Receives build world party epCap result after) {other : Party}
    (different : other ≠ party) : after.tables other = world.tables other := by
  rcases receives with ⟨final, _, rfl⟩
  exact Function.update_of_ne different _ _

theorem Sends.fails {error : IpcError} (steady : Steady world)
    (sends : Sends build world party epCap msg transfer (.error error) after) :
    endpointState after = endpointState world := by
  rcases sends.step steady.sound with ⟨final, step, rfl⟩
  cases step with
  | refused early => rfl
  | busy names live holds => exact states_touch steady.occupied live
  | kept names live => exact states_touch steady.occupied live

theorem Sends.enqueues (steady : Steady world)
    (sends : Sends build world party epCap msg transfer (.ok .enqueued) after) :
    ∃ ep owned, Names (world.tables party) epCap .send ep ∧ endpointState world ep = .idle ∧
      endpointState after =
        Function.update (endpointState world) ep (.sendPending msg owned) := by
  rcases sends.step steady.sound with ⟨final, step, rfl⟩
  cases step with
  | @enqueued ep owned table names live idle takes =>
      exact ⟨ep, owned, names, idle, states_set steady.occupied live _⟩

theorem Sends.delivers (steady : Steady world)
    (sends : Sends build world party epCap msg transfer (.ok .delivered) after) :
    ∃ ep owned, Names (world.tables party) epCap .send ep ∧ Live world.arena ep.slot ∧
      endpointState world ep = .recvWaiting ∧
      Takes (world.tables party) transfer owned (after.tables party) ∧
      endpointState after =
        Function.update (endpointState world) ep (.recvComplete msg owned) := by
  rcases sends.step steady.sound with ⟨final, step, rfl⟩
  cases step with
  | @delivered ep owned table names live waiting takes =>
      refine ⟨ep, owned, names, live, waiting, ?_, states_set steady.occupied live _⟩
      rw [put_back_table]
      exact takes

theorem Receives.pends (steady : Steady world)
    (receives : Receives build world party epCap (.ok .pending) after) :
    ∃ ep, Names (world.tables party) epCap .recv ep ∧ Live world.arena ep.slot ∧
      endpointState world ep = .idle ∧ after.tables = world.tables ∧
      endpointState after = Function.update (endpointState world) ep .recvWaiting := by
  rcases receives.step steady.sound with ⟨final, step, rfl⟩
  cases step with
  | @pending ep names live idle =>
      exact ⟨ep, names, live, idle, Function.update_eq_self _ _,
        states_set steady.occupied live _⟩

theorem Receives.takes {fresh : Option CapHandle} (steady : Steady world)
    (receives : Receives build world party epCap (.ok (.received msg fresh)) after) :
    ∃ ep cap, Names (world.tables party) epCap .recv ep ∧ Live world.arena ep.slot ∧
      (endpointState world ep).stored = some (msg, cap) ∧
      Installs (world.tables party) cap fresh (after.tables party) ∧
      endpointState after = Function.update (endpointState world) ep .idle := by
  rcases receives.step steady.sound with ⟨final, step, rfl⟩
  cases step with
  | @received ep msg cap fresh table names live stored installs =>
      refine ⟨ep, cap, names, live, stored, ?_, states_set steady.occupied live _⟩
      rw [put_back_table]
      exact installs

/-- Why a receive fails. -/
inductive Refuses (world : World Party) (party : Party) (epCap : CapHandle) : IpcError → Prop where
  | unnamed (none : ∀ ep, Names (world.tables party) epCap .recv ep → ¬ Live world.arena ep.slot) :
      Refuses world party epCap .invalidCapability
  | full {ep : EndpointHandle} (names : Names (world.tables party) epCap .recv ep)
      (live : Live world.arena ep.slot)
      (parked : (endpointState world ep).parked.isSome = true)
      (noRoom : isFull (world.tables party) = true) :
      Refuses world party epCap .receiverTableFull
  | busy {ep : EndpointHandle} (names : Names (world.tables party) epCap .recv ep)
      (live : Live world.arena ep.slot) (waiting : endpointState world ep = .recvWaiting) :
      Refuses world party epCap .queueFull

theorem Receives.fails {error : IpcError} (steady : Steady world)
    (receives : Receives build world party epCap (.error error) after) :
    Refuses world party epCap error ∧ after.tables = world.tables ∧
      endpointState after = endpointState world := by
  rcases receives.step steady.sound with ⟨final, step, rfl⟩
  have sameTables : (putBack world party
      { seenBy world party with queues := final.queues }).tables = world.tables :=
    Function.update_eq_self _ _
  cases step with
  | refused unnamed => exact ⟨.unnamed unnamed, sameTables, rfl⟩
  | full names live parked noRoom =>
      exact ⟨.full names live parked noRoom, sameTables, states_touch steady.occupied live⟩
  | busy names live waiting =>
      exact ⟨.busy names live waiting, sameTables, states_touch steady.occupied live⟩

theorem Receives.keeps_busy {result : Except IpcError RecvOutcome} (steady : Steady world)
    (receives : Receives build world party epCap result after) {ep : EndpointHandle}
    (busy : endpointState world ep ≠ .idle)
    (untouched : ∀ msg fresh, result = .ok (.received msg fresh) →
      ¬ Names (world.tables party) epCap .recv ep) :
    endpointState after ep = endpointState world ep := by
  cases result with
  | error error => rw [(receives.fails steady).2.2]
  | ok outcome =>
      cases outcome with
      | received msg fresh =>
          rcases receives.takes steady with ⟨home, cap, names, _, _, _, states⟩
          have different : ep ≠ home := by
            intro same
            rw [← same] at names
            exact untouched msg fresh rfl names
          rw [states, Function.update_of_ne different]
      | pending =>
          rcases receives.pends steady with ⟨home, _, _, idle, _, states⟩
          have different : ep ≠ home := by
            intro same
            rw [← same] at idle
            exact busy idle
          rw [states, Function.update_of_ne different]

/-- Whatever a receive does, an endpoint with a waiting receiver keeps it waiting. -/
theorem Receives.keeps_waiting {result : Except IpcError RecvOutcome} (steady : Steady world)
    (receives : Receives build world party epCap result after) {ep : EndpointHandle}
    (waiting : endpointState world ep = .recvWaiting) :
    endpointState after ep = .recvWaiting := by
  rw [receives.keeps_busy steady (by simp [waiting]), waiting]
  intro msg fresh took names
  rw [took] at receives
  rcases receives.takes steady with ⟨home, cap, otherNames, _, stored, _⟩
  rw [← names_unique names otherNames, waiting] at stored
  cases stored

theorem Sends.keeps_busy {result : Except IpcError SendOutcome} (steady : Steady world)
    (sends : Sends build world party epCap msg transfer result after)
    (quiet : result ≠ .ok .delivered) {ep : EndpointHandle}
    (busy : endpointState world ep ≠ .idle) : endpointState after ep = endpointState world ep := by
  cases result with
  | error error => rw [sends.fails steady]
  | ok outcome =>
      cases outcome with
      | delivered => exact absurd rfl quiet
      | enqueued =>
          rcases sends.enqueues steady with ⟨home, owned, _, idle, states⟩
          have different : ep ≠ home := by
            intro same
            exact busy (by rw [same, idle])
          rw [states, Function.update_of_ne different]

theorem Sends.waited {result : Except IpcError SendOutcome} (steady : Steady world)
    (sends : Sends build world party epCap msg transfer result after) {ep : EndpointHandle}
    (waiting : endpointState after ep = .recvWaiting) :
    endpointState world ep = .recvWaiting := by
  have unchanged : ∀ {home : EndpointHandle} {state : EndpointState}, state ≠ .recvWaiting →
      endpointState after = Function.update (endpointState world) home state →
      endpointState world ep = .recvWaiting := by
    intro home state other states
    rw [states] at waiting
    by_cases same : ep = home
    · rw [same, Function.update_self] at waiting
      exact absurd waiting other
    · rw [Function.update_of_ne same] at waiting
      exact waiting
  cases result with
  | error error =>
      rw [sends.fails steady] at waiting
      exact waiting
  | ok outcome =>
      cases outcome with
      | delivered =>
          rcases sends.delivers steady with ⟨home, owned, _, _, _, _, states⟩
          exact unchanged (by simp) states
      | enqueued =>
          rcases sends.enqueues steady with ⟨home, owned, _, _, states⟩
          exact unchanged (by simp) states

theorem Receives.waited {result : Except IpcError RecvOutcome} (steady : Steady world)
    (receives : Receives build world party epCap result after) (done : result ≠ .ok .pending)
    {ep : EndpointHandle} (waiting : endpointState after ep = .recvWaiting) :
    endpointState world ep = .recvWaiting := by
  cases result with
  | error error =>
      rw [(receives.fails steady).2.2] at waiting
      exact waiting
  | ok outcome =>
      cases outcome with
      | pending => exact absurd rfl done
      | received msg fresh =>
          rcases receives.takes steady with ⟨home, cap, _, _, _, _, states⟩
          rw [states] at waiting
          by_cases same : ep = home
          · rw [same, Function.update_self] at waiting
            cases waiting
          · rw [Function.update_of_ne same] at waiting
            exact waiting

end Operations

/-! ## Between bridge calls -/

section Aside

variable [DecidableEq Party] {Machine : Type}

/-- What the task in control may do: it calls the bridge functions with its own table,
and in between it creates endpoints and works on its own table. -/
inductive Behaves (build : Build) (own : Party) (world : World Party) :
    Event Party Machine → Prop where
  | yields : Behaves build own world (.call .yieldNow)
  | sends {epCap : CapHandle} {msg : Message} {transfer : Option CapHandle} :
      Behaves build own world (.call (.ipcSendAndYield own epCap msg transfer))
  | receives {epCap : CapHandle} : Behaves build own world (.call (.ipcRecvAndYield own epCap))
  | resumes : Behaves build own world .resume
  | computes {machine : Machine} : Behaves build own world (.elsewhere world machine)
  | creates {endpoint : Endpoint} {result : Except SystemError SystemReply}
      {after : World Party} {machine : Machine}
      (step : SystemStep build world ⟨.createEndpoint endpoint, result⟩ after) :
      Behaves build own world (.elsewhere after machine)
  | tends {op : TableOp} {result : Except SystemError SystemReply} {after : World Party}
      {machine : Machine} (step : SystemStep build world ⟨.table own op, result⟩ after) :
      Behaves build own world (.elsewhere after machine)

theorem Behaves.elsewhere {build : Build} {own : Party} {world after : World Party}
    {machine : Machine} (steady : Steady world)
    (behaves : Behaves build own world (.elsewhere after machine)) :
    Steady after ∧ endpointState after = endpointState world ∧
      (∀ ep : EndpointHandle, Live world.arena ep.slot → Live after.arena ep.slot) ∧
      ∀ other, other ≠ own → after.tables other = world.tables other := by
  cases behaves with
  | computes => exact ⟨steady, rfl, fun _ live => live, fun _ _ => rfl⟩
  | creates step =>
      have listed := step.world_step steady.sound
      refine ⟨⟨listed.sound steady.sound (by intro handle same; cases same),
        listed.occupied (by intro handle same; cases same) steady.occupied⟩, ?_⟩
      generalize asked : SystemOp.createEndpoint _ = op at listed
      cases listed with
      | created available vacant =>
          exact ⟨rfl, fun _ live => live_store vacant.1 vacant.2 _ live, fun _ _ => rfl⟩
      | arenaFull full => exact ⟨rfl, fun _ live => live, fun _ _ => rfl⟩
      | _ => cases asked
  | tends step =>
      have listed := step.world_step steady.sound
      refine ⟨⟨listed.sound steady.sound (by intro handle same; cases same),
        listed.occupied (by intro handle same; cases same) steady.occupied⟩, ?_⟩
      generalize asked : SystemOp.table own _ = op at listed
      cases listed with
      | table returns =>
          cases asked
          exact ⟨rfl, fun _ live => live, fun _ different => Function.update_of_ne different _ _⟩
      | _ => cases asked

end Aside

end Tyrne.Sched
