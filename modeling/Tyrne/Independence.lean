import Tyrne.EndpointMachine

/-!
# Independent calls

Two parties with different tables, each using its own table or an endpoint that the
other is not using, do not notice each other: in either order their calls come back
with the same results and leave the same world.
-/

namespace Tyrne.System

open Tyrne.Lib.Effect
open Tyrne.Cap
open Tyrne.CapSpace (TableOp)
open Tyrne.CapTable (CapabilityTable)
open Tyrne.ObjArena
open Tyrne.Ipc

set_option autoImplicit false

/-! ## What an answer depends on -/

section Answers

variable {found other : EndpointHandle → Option EndpointState} {epCap : CapHandle}
  {msg : Message} {transfer : Option CapHandle} {table : CapabilityTable}

theorem validated_endpoint {required : CapRights} {ep : EndpointHandle} {after : CapabilityTable}
    (validated : validateEpCap epCap required table = .ok ep after) :
    endpointAt table epCap = some ep := by
  rcases @validate_cases table epCap required with ⟨named, names, ran⟩ | ⟨_, refused⟩
  · cases ran.symm.trans validated
    exact endpoint_at_named names
  · cases refused.symm.trans validated

theorem send_answer_congr
    (same : ∀ ep, endpointAt table epCap = some ep → found ep = other ep) :
    sendAnswer found epCap msg transfer table = sendAnswer other epCap msg transfer table := by
  unfold sendAnswer
  cases validated : validateEpCap epCap .send table with
  | ok ep after =>
      have agree := same ep (validated_endpoint validated)
      cases checkTransfer transfer table with
      | ok value final => simp only [agree]
      | err error final => rfl
      | fault reason => rfl
  | err error after => rfl
  | fault reason => rfl

theorem recv_answer_congr
    (same : ∀ ep, endpointAt table epCap = some ep → found ep = other ep) :
    recvAnswer found epCap table = recvAnswer other epCap table := by
  unfold recvAnswer
  cases validated : validateEpCap epCap .recv table with
  | ok ep after => simp only [same ep (validated_endpoint validated)]
  | err error after => rfl
  | fault reason => rfl

theorem send_to_writes (ep : EndpointHandle) (state : EndpointState) :
    ∃ later, (sendTo ep msg transfer table state).written = some (ep, later) := by
  unfold sendTo
  split
  · exact ⟨_, rfl⟩
  · split
    · split
      · exact ⟨_, rfl⟩
      · exact ⟨_, rfl⟩
    · exact ⟨_, rfl⟩

theorem recv_from_writes (ep : EndpointHandle) (state : EndpointState) :
    ∃ later, (recvFrom ep table state).written = some (ep, later) := by
  unfold recvFrom
  split
  · exact ⟨_, rfl⟩
  · split
    · split
      · exact ⟨_, rfl⟩
      · exact ⟨_, rfl⟩
    · split
      · exact ⟨_, rfl⟩
      · exact ⟨_, rfl⟩

/-- A call writes to no endpoint but the one its capability names, and to that only if
it is live. -/
theorem send_writes {ep : EndpointHandle} {state : EndpointState}
    (write : (sendAnswer found epCap msg transfer table).written = some (ep, state)) :
    endpointAt table epCap = some ep ∧ ∃ before, found ep = some before := by
  unfold sendAnswer at write
  split at write
  · next target _ _ _ validated _ =>
      split at write
      · next before known =>
          rcases @send_to_writes msg transfer table target before with ⟨later, wrote⟩
          cases wrote.symm.trans write
          exact ⟨validated_endpoint validated, before, known⟩
      · cases write
  · cases write
  · cases write

theorem recv_writes {ep : EndpointHandle} {state : EndpointState}
    (write : (recvAnswer found epCap table).written = some (ep, state)) :
    endpointAt table epCap = some ep ∧ ∃ before, found ep = some before := by
  unfold recvAnswer at write
  split at write
  · next target _ validated =>
      split at write
      · next before known =>
          rcases @recv_from_writes table target before with ⟨later, wrote⟩
          cases wrote.symm.trans write
          exact ⟨validated_endpoint validated, before, known⟩
      · cases write
  · cases write

end Answers

/-! ## Calls of one party -/

section Calls

variable {Party : Type} [DecidableEq Party]

/-- The endpoint that a call's capability names. -/
def targetOf (world : World Party) : SystemOp Party → Option EndpointHandle
  | .ipcSend party epCap _ _ => endpointAt (world.tables party) epCap
  | .ipcRecv party epCap => endpointAt (world.tables party) epCap
  | .createEndpoint _ => none
  | .destroyEndpoint _ => none
  | .table _ _ => none

/-- The call is an operation of `party` on its own table, or a send or receive through
a capability of its table that names a live endpoint. -/
def OwnCall (world : World Party) (party : Party) (op : SystemOp Party) : Prop :=
  (∃ tableOp, op = .table party tableOp) ∨
    ∃ ep, targetOf world op = some ep ∧ Live world.arena ep.slot ∧
      ((∃ epCap msg transfer, op = .ipcSend party epCap msg transfer) ∨
        ∃ epCap, op = .ipcRecv party epCap)

def World.updated (world : World Party) (party : Party)
    (write : Option (EndpointHandle × EndpointState)) (table : CapabilityTable) :
    World Party where
  arena := world.arena
  queues := overwrite world.queues write
  tables := Function.update world.tables party table

/-- To this party's call, the two worlds look the same. -/
structure Alike (party : Party) (target : Option EndpointHandle) (world other : World Party) :
    Prop where
  sound : Sound other
  arena : other.arena = world.arena
  table : other.tables party = world.tables party
  state : ∀ ep, target = some ep → stateAt other.queues ep = stateAt world.queues ep

variable {world : World Party} {party : Party} {op : SystemOp Party}

omit [DecidableEq Party] in
theorem Alike.incarnation {target : Option EndpointHandle} {other : World Party}
    (alike : Alike party target world other) (ep : EndpointHandle) (isTarget : target = some ep) :
    incarnation other.arena other.queues ep = incarnation world.arena world.queues ep := by
  unfold System.incarnation
  rw [alike.arena, alike.state ep isTarget]

/-- A call of a party does the same in all worlds that look the same to it. -/
theorem OwnCall.acts (own : OwnCall world party op) (sound : Sound world) (build : Build) :
    ∃ result write table, (∀ ep state, write = some (ep, state) → targetOf world op = some ep) ∧
      ∀ other, Alike party (targetOf world op) world other →
        SystemStep build other ⟨op, result⟩ (other.updated party write table) := by
  rcases own with ⟨tableOp, rfl⟩ | ⟨ep, target, live, ⟨epCap, msg, transfer, rfl⟩ | ⟨epCap, rfl⟩⟩
  · rcases CapTable.perform_returns (sound.tables party) tableOp with ⟨result, after, returns⟩
    refine ⟨liftResult .cap .table result, none, after, ⟨?_, ?_⟩⟩
    · intro _ _ same
      cases same
    · intro other alike
      have step := (returns build).step
      rw [← alike.table] at step
      exact lift_returned step
  · let answer := sendAnswer (incarnation world.arena world.queues) epCap msg transfer
      (world.tables party)
    refine ⟨liftResult .ipc .sent answer.result, answer.written, answer.table, ⟨?_, ?_⟩⟩
    · intro _ _ write
      exact (send_writes write).1
    · intro other alike
      have step := alike.sound.send_step build party epCap msg transfer
      rw [alike.table, send_answer_congr alike.incarnation] at step
      exact step
  · let answer := recvAnswer (incarnation world.arena world.queues) epCap (world.tables party)
    refine ⟨liftResult .ipc .received answer.result, answer.written, answer.table, ⟨?_, ?_⟩⟩
    · intro _ _ write
      exact (recv_writes write).1
    · intro other alike
      have step := alike.sound.recv_step build party epCap
      rw [alike.table, recv_answer_congr alike.incarnation] at step
      exact step

/-! ## Both orders -/

theorem overwrite_comm {queues : IpcQueues} {left right : Option (EndpointHandle × EndpointState)}
    (apart : ∀ leftEp leftState rightEp rightState, left = some (leftEp, leftState) →
      right = some (rightEp, rightState) → leftEp.slot.index ≠ rightEp.slot.index) :
    overwrite (overwrite queues left) right = overwrite (overwrite queues right) left := by
  rcases left with _ | ⟨leftEp, leftState⟩
  · rfl
  · rcases right with _ | ⟨rightEp, rightState⟩
    · rfl
    · have different := apart _ _ _ _ rfl rfl
      simp only [overwrite, setState, IpcQueues.mk.injEq]
      exact ⟨Vector.setIfInBound_comm _ _ different, Vector.setIfInBound_comm _ _ different⟩

theorem alike_updated {caller : Party} {target : Option EndpointHandle}
    {write : Option (EndpointHandle × EndpointState)} {table : CapabilityTable}
    (sound : Sound (world.updated caller write table)) (different : party ≠ caller)
    (apart : ∀ ep state other, write = some (ep, state) → target = some other →
      ep.slot.index < endpointArenaCapacity ∧ other.slot.index ≠ ep.slot.index) :
    Alike party target world (world.updated caller write table) where
  sound := sound
  arena := rfl
  table := Function.update_of_ne different _ _
  state := by
    intro other isTarget
    rcases write with _ | ⟨ep, state⟩
    · rfl
    · rcases apart ep state other rfl isTarget with ⟨bound, elsewhere⟩
      exact state_at_other bound state elsewhere

omit [DecidableEq Party] in
theorem OwnCall.guarded (own : OwnCall world party op) : Guarded world op := by
  intro handle destroys
  subst destroys
  rcases own with ⟨tableOp, same⟩ | ⟨ep, _, _, ⟨_, _, _, same⟩ | ⟨_, same⟩⟩
  · cases same
  · cases same
  · cases same

omit [DecidableEq Party] in
theorem OwnCall.live (own : OwnCall world party op) {ep : EndpointHandle}
    (target : targetOf world op = some ep) : Live world.arena ep.slot := by
  rcases own with ⟨tableOp, rfl⟩ | ⟨named, isTarget, live, _⟩
  · cases target
  · cases isTarget.symm.trans target
    exact live

/-- From every reachable world: two calls by different parties, each on the party's own
table or on a live endpoint, the endpoints being different, come back with the same
results in either order and leave the same world. -/
theorem independent_calls_commute {build : Build} {left right : SystemOp Party}
    {leftParty rightParty : Party} (reachable : Reachable build world)
    (parties : leftParty ≠ rightParty) (leftOwn : OwnCall world leftParty left)
    (rightOwn : OwnCall world rightParty right)
    (apart : ∀ ep, targetOf world left = some ep → targetOf world right ≠ some ep) :
    ∃ leftResult rightResult afterLeft afterRight final,
      SystemStep build world ⟨left, leftResult⟩ afterLeft ∧
      SystemStep build afterLeft ⟨right, rightResult⟩ final ∧
      SystemStep build world ⟨right, rightResult⟩ afterRight ∧
      SystemStep build afterRight ⟨left, leftResult⟩ final := by
  have sound := reachable.sound
  rcases leftOwn.acts sound build with ⟨leftResult, leftWrite, leftTable, leftTarget, leftActs⟩
  rcases rightOwn.acts sound build with
    ⟨rightResult, rightWrite, rightTable, rightTarget, rightActs⟩
  have itself : ∀ party target, Alike party target world world := fun _ _ =>
    ⟨sound, rfl, rfl, fun _ _ => rfl⟩
  have leftStep := leftActs world (itself _ _)
  have rightStep := rightActs world (itself _ _)
  have leftSound := (leftStep.world_step sound).sound sound leftOwn.guarded
  have rightSound := (rightStep.world_step sound).sound sound rightOwn.guarded
  -- live endpoints that differ are in different slots
  have slots : ∀ leftEp rightEp, targetOf world left = some leftEp →
      targetOf world right = some rightEp → leftEp.slot.index ≠ rightEp.slot.index := by
    intro leftEp rightEp isLeft isRight same
    have sameEp := live_handle_unique (leftOwn.live isLeft) (rightOwn.live isRight) same
    exact apart leftEp isLeft (sameEp ▸ isRight)
  have afterLeft : Alike rightParty (targetOf world right) world
      (world.updated leftParty leftWrite leftTable) := by
    apply alike_updated leftSound parties.symm
    intro ep state other wrote isRight
    have isLeft := leftTarget ep state wrote
    exact ⟨(leftOwn.live isLeft).in_range, (slots ep other isLeft isRight).symm⟩
  have afterRight : Alike leftParty (targetOf world left) world
      (world.updated rightParty rightWrite rightTable) := by
    apply alike_updated rightSound parties
    intro ep state other wrote isLeft
    have isRight := rightTarget ep state wrote
    exact ⟨(rightOwn.live isRight).in_range, slots other ep isLeft isRight⟩
  have final : (world.updated leftParty leftWrite leftTable).updated rightParty rightWrite
        rightTable =
      (world.updated rightParty rightWrite rightTable).updated leftParty leftWrite leftTable := by
    have queues := @overwrite_comm world.queues leftWrite rightWrite (by
      intro leftEp leftState rightEp rightState wroteLeft wroteRight
      exact slots _ _ (leftTarget _ _ wroteLeft) (rightTarget _ _ wroteRight))
    unfold World.updated
    simp only [World.mk.injEq, true_and]
    exact ⟨queues, Function.update_comm parties _ _ _⟩
  have rightAfter := rightActs _ afterLeft
  rw [final] at rightAfter
  exact ⟨leftResult, rightResult, _, _, _, leftStep, rightAfter, rightStep,
    leftActs _ afterRight⟩

end Calls

def neighbours : World Bool :=
  reached ⟨true⟩ [.createEndpoint ⟨7⟩, .createEndpoint ⟨8⟩,
    .table true (.insertRoot ⟨⟨127⟩, .endpoint ⟨⟨0, 0⟩⟩⟩),
    .table false (.insertRoot ⟨⟨127⟩, .endpoint ⟨⟨1, 0⟩⟩⟩)]

theorem independent_calls_commute_neighbours :
    let send : SystemOp Bool := .ipcSend true ⟨0, 0⟩ ⟨1, #v[2, 3, 4]⟩ none
    let recv : SystemOp Bool := .ipcRecv false ⟨0, 0⟩
    (targetOf neighbours send = some ⟨⟨0, 0⟩⟩ ∧ targetOf neighbours recv = some ⟨⟨1, 0⟩⟩) ∧
      ∃ sent received afterSend afterRecv final,
        SystemStep ⟨true⟩ neighbours ⟨send, sent⟩ afterSend ∧
        SystemStep ⟨true⟩ afterSend ⟨recv, received⟩ final ∧
        SystemStep ⟨true⟩ neighbours ⟨recv, received⟩ afterRecv ∧
        SystemStep ⟨true⟩ afterRecv ⟨send, sent⟩ final := by
  intro send recv
  have reachable : Reachable ⟨true⟩ neighbours := reached_reachable ⟨true⟩ (by simp)
  have first : targetOf neighbours send = some ⟨⟨0, 0⟩⟩ := by decide +kernel
  have second : targetOf neighbours recv = some ⟨⟨1, 0⟩⟩ := by decide +kernel
  have firstLive : Live neighbours.arena ⟨0, 0⟩ := ⟨⟨⟨7⟩, by decide +kernel⟩, by decide +kernel⟩
  have secondLive : Live neighbours.arena ⟨1, 0⟩ := ⟨⟨⟨8⟩, by decide +kernel⟩, by decide +kernel⟩
  refine ⟨⟨first, second⟩, independent_calls_commute reachable (by decide)
    (Or.inr ⟨_, first, firstLive, Or.inl ⟨_, _, _, rfl⟩⟩)
    (Or.inr ⟨_, second, secondLive, Or.inr ⟨_, rfl⟩⟩) ?_⟩
  intro ep isFirst isSecond
  cases isFirst.symm.trans first
  cases isSecond.symm.trans second

end Tyrne.System
