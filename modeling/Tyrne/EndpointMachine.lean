import Mathlib.Data.List.Induction
import Tyrne.Conservation

/-!
# Endpoints as machines

What a send or a receive answers, what it writes to its endpoint and what it leaves of
the caller's table is a function of the endpoint's logical state and of the table: no
other endpoint and no other table is read. A call that fails leaves all tables, the
arena and the logical state of every live endpoint as they were.
-/

namespace Tyrne.System

open Tyrne.Lib.Effect
open Tyrne.Lib.Runs
open Tyrne.Cap
open Tyrne.CapTable (CapabilityTable lookup isFull)
open Tyrne.ObjArena
open Tyrne.Ipc

set_option autoImplicit false

/-! ## What a call answers -/

/-- What a call came to: its result, what it wrote to the state of an endpoint, if it
came as far as looking at one, and the caller's table. -/
structure Answer (Outcome : Type) where
  result : Except IpcError Outcome
  written : Option (EndpointHandle × EndpointState)
  table : CapabilityTable

/-- The logical state of an endpoint, if the endpoint is live. -/
def incarnation (arena : EndpointArena) (queues : IpcQueues) (ep : EndpointHandle) :
    Option EndpointState :=
  (get arena ep.slot).map fun _ => stateAt queues ep

def refusal {Outcome : Type} (error : IpcError) (table : CapabilityTable) : Answer Outcome :=
  ⟨.error error, none, table⟩

/-- A send to an endpoint in this state, the transfer having been checked. -/
def sendTo (ep : EndpointHandle) (msg : Message) (transfer : Option CapHandle)
    (table : CapabilityTable) (state : EndpointState) : Answer SendOutcome :=
  if state.stored.isSome then ⟨.error .queueFull, some (ep, state), table⟩
  else
    match takeCapIfSome transfer table with
    | .ok owned after =>
        if state = .recvWaiting then
          ⟨.ok .delivered, some (ep, .recvComplete msg owned), after⟩
        else ⟨.ok .enqueued, some (ep, .sendPending msg owned), after⟩
    | _ => ⟨.error .invalidTransferCap, some (ep, state), table⟩

def sendAnswer (found : EndpointHandle → Option EndpointState) (epCap : CapHandle)
    (msg : Message) (transfer : Option CapHandle) (table : CapabilityTable) :
    Answer SendOutcome :=
  match validateEpCap epCap .send table, checkTransfer transfer table with
  | .ok ep _, .ok _ _ =>
      match found ep with
      | some state => sendTo ep msg transfer table state
      | none => refusal .invalidCapability table
  | .ok _ _, _ => refusal .invalidTransferCap table
  | _, _ => refusal .invalidCapability table

/-- A receive from an endpoint in this state. -/
def recvFrom (ep : EndpointHandle) (table : CapabilityTable) (state : EndpointState) :
    Answer RecvOutcome :=
  if state.parked.isSome && isFull table then ⟨.error .receiverTableFull, some (ep, state), table⟩
  else
    match state.stored with
    | some (msg, cap) =>
        match installCapIfSome cap table with
        | .ok handle after => ⟨.ok (.received msg handle), some (ep, .idle), after⟩
        | _ => ⟨.error .receiverTableFull, some (ep, state), table⟩
    | none =>
        if state = .recvWaiting then ⟨.error .queueFull, some (ep, .recvWaiting), table⟩
        else ⟨.ok .pending, some (ep, .recvWaiting), table⟩

def recvAnswer (found : EndpointHandle → Option EndpointState) (epCap : CapHandle)
    (table : CapabilityTable) : Answer RecvOutcome :=
  match validateEpCap epCap .recv table with
  | .ok ep _ =>
      match found ep with
      | some state => recvFrom ep table state
      | none => refusal .invalidCapability table
  | _ => refusal .invalidCapability table

/-- The queues with what an answer wrote. -/
def overwrite (queues : IpcQueues) : Option (EndpointHandle × EndpointState) → IpcQueues
  | none => queues
  | some (ep, state) => setState queues ep state

def Answer.applied {Outcome : Type} (answer : Answer Outcome) (state : IpcState) : IpcState where
  arena := state.arena
  queues := overwrite state.queues answer.written
  table := answer.table

section Incarnations

variable {arena : EndpointArena} {queues : IpcQueues} {ep : EndpointHandle}

theorem incarnation_live (live : Live arena ep.slot) :
    incarnation arena queues ep = some (stateAt queues ep) := by
  rcases get_iff.mpr live with ⟨endpoint, found⟩
  simp [incarnation, found]

theorem incarnation_dead (dead : ¬ Live arena ep.slot) : incarnation arena queues ep = none := by
  simp [incarnation, get_stale dead]

theorem incarnation_some {state : EndpointState}
    (known : incarnation arena queues ep = some state) :
    Live arena ep.slot ∧ stateAt queues ep = state := by
  unfold incarnation at known
  rcases Option.map_eq_some_iff.mp known with ⟨endpoint, found, same⟩
  exact ⟨get_iff.mp ⟨endpoint, found⟩, same⟩

theorem live_handle_unique {other : EndpointHandle} (live : Live arena ep.slot)
    (otherLive : Live arena other.slot) (index : ep.slot.index = other.slot.index) :
    ep = other := by
  have same := live.unique otherLive index
  cases ep
  cases other
  exact congrArg EndpointHandle.mk same

end Incarnations

section Answers

variable {state : IpcState}

variable (wellFormed : CapTable.WellFormed state.table)
  (drained : ∀ handle, Live state.arena handle.slot → Drained state.queues handle)
include wellFormed

theorem commit_send_answer {ep : EndpointHandle} (live : Live state.arena ep.slot)
    (msg : Message) (transfer : Option CapHandle)
    (empty : (stateAt state.queues ep).stored = none) (build : Build) :
    (commitSend build ep msg transfer
      { state with queues := touch state.queues ep }).Returned
        (sendTo ep msg transfer state.table (stateAt state.queues ep)).result
        ((sendTo ep msg transfer state.table (stateAt state.queues ep)).applied state) := by
  unfold sendTo
  rcases take_cap_cases wellFormed transfer with ⟨owned, after, takes, taken⟩ | kept
  · cases found : stateAt state.queues ep with
    | recvWaiting =>
        rw [commit_send_waiting build live taken found]
        simp only [EndpointState.stored, Option.isSome_none, Bool.false_eq_true, if_false, taken,
          if_true, Answer.applied, overwrite, Outcome.Returned]
    | idle =>
        have different : EndpointState.idle ≠ .recvWaiting := by decide
        rw [commit_send_idle build live taken found]
        simp only [EndpointState.stored, Option.isSome_none, Bool.false_eq_true, if_false, taken,
          different, Answer.applied, overwrite, Outcome.Returned]
    | sendPending msg cap => simp [found, EndpointState.stored] at empty
    | recvComplete msg cap => simp [found, EndpointState.stored] at empty
  · rw [commit_send_kept build kept]
    simp only [empty, Option.isSome_none, Bool.false_eq_true, if_false, kept, Answer.applied,
      overwrite, Outcome.Returned, touch]

theorem commit_recv_answer {ep : EndpointHandle} (live : Live state.arena ep.slot)
    (room : ((stateAt state.queues ep).parked.isSome && isFull state.table) = false)
    (build : Build) :
    (commitRecv build ep { state with queues := touch state.queues ep }).Returned
        (recvFrom ep state.table (stateAt state.queues ep)).result
        ((recvFrom ep state.table (stateAt state.queues ep)).applied state) := by
  unfold recvFrom
  rw [room]
  cases stored : (stateAt state.queues ep).stored with
  | some parcel =>
      rcases parcel with ⟨msg, cap⟩
      have fits : cap.isSome = true → isFull state.table = false := by
        intro carries
        simpa [EndpointState.parked, stored, carries] using room
      rcases install_cap_run wellFormed cap fits with ⟨fresh, after, _, installed⟩
      rw [commit_recv_stored build live stored installed]
      simp only [Bool.false_eq_true, if_false, installed, Answer.applied, overwrite,
        Outcome.Returned]
  | none =>
      cases found : stateAt state.queues ep with
      | recvWaiting =>
          have same : touch state.queues ep = setState state.queues ep .recvWaiting := by
            rw [touch, found]
          rw [commit_recv_waiting build live found, same]
          simp only [Bool.false_eq_true, if_false, if_true, Answer.applied, overwrite,
            Outcome.Returned]
      | idle =>
          have different : EndpointState.idle ≠ .recvWaiting := by decide
          rw [commit_recv_idle build live found]
          simp only [Bool.false_eq_true, if_false, different, Answer.applied, overwrite,
            Outcome.Returned]
      | sendPending msg cap => simp [found, EndpointState.stored] at stored
      | recvComplete msg cap => simp [found, EndpointState.stored] at stored

include drained

theorem ipc_send_answers (epCap : CapHandle) (msg : Message) (transfer : Option CapHandle)
    (build : Build) :
    let answer := sendAnswer (incarnation state.arena state.queues) epCap msg transfer state.table
    (ipcSend build epCap msg transfer state).Returned answer.result (answer.applied state) := by
  intro answer
  rcases @validate_cases state.table epCap .send with ⟨ep, names, validated⟩ | ⟨_, refused⟩
  · rcases @check_transfer_cases state.table transfer with checked | unchecked
    · by_cases live : Live state.arena ep.slot
      · have known : answer = sendTo ep msg transfer state.table (stateAt state.queues ep) := by
          simp only [answer, sendAnswer, validated, checked, incarnation_live live]
        rw [known, ipc_send_live validated checked live (drained ep live)]
        cases stored : (stateAt state.queues ep).stored with
        | some pair =>
            simp only [sendTo, Outcome.Returned, stored, Option.isSome_some, if_true, fail_run,
              Answer.applied, overwrite, touch]
        | none =>
            simp only [Option.isSome_none, Bool.false_eq_true, if_false]
            exact commit_send_answer wellFormed live msg transfer stored build
      · rw [ipc_send_dead validated checked live]
        simp only [answer, sendAnswer, validated, checked, incarnation_dead live, refusal,
          Answer.applied, overwrite, Outcome.Returned]
    · rw [ipc_send_unchecked validated unchecked]
      simp only [answer, sendAnswer, validated, unchecked, refusal, Answer.applied, overwrite,
        Outcome.Returned]
  · rw [ipc_send_unnamed refused]
    simp only [answer, sendAnswer, refused, refusal, Answer.applied, overwrite, Outcome.Returned]

theorem ipc_recv_answers (epCap : CapHandle) (build : Build) :
    let answer := recvAnswer (incarnation state.arena state.queues) epCap state.table
    (ipcRecv build epCap state).Returned answer.result (answer.applied state) := by
  intro answer
  rcases @validate_cases state.table epCap .recv with ⟨ep, names, validated⟩ | ⟨_, refused⟩
  · by_cases live : Live state.arena ep.slot
    · have known : answer = recvFrom ep state.table (stateAt state.queues ep) := by
        simp only [answer, recvAnswer, validated, incarnation_live live]
      rw [known, ipc_recv_live validated live (drained ep live)]
      cases blocked : (stateAt state.queues ep).parked.isSome && isFull state.table with
      | true =>
          simp only [recvFrom, Outcome.Returned, blocked, if_true, fail_run, Answer.applied,
            overwrite, touch]
      | false =>
          simp only [Bool.false_eq_true, if_false]
          exact commit_recv_answer wellFormed live blocked build
    · rw [ipc_recv_dead validated live]
      simp only [answer, recvAnswer, validated, incarnation_dead live, refusal, Answer.applied,
        overwrite, Outcome.Returned]
  · rw [ipc_recv_unnamed refused]
    simp only [answer, recvAnswer, refused, refusal, Answer.applied, overwrite, Outcome.Returned]

end Answers

/-! ## Failures -/

section Failures

variable {found : EndpointHandle → Option EndpointState} {epCap : CapHandle} {msg : Message}
  {transfer : Option CapHandle} {table : CapabilityTable}

/-- A call that fails leaves the table, and writes back what it found. -/
def Answer.Harmless {Outcome : Type} (found : EndpointHandle → Option EndpointState)
    (table : CapabilityTable) (answer : Answer Outcome) : Prop :=
  ∀ error, answer.result = .error error → answer.table = table ∧
    ∀ ep state, answer.written = some (ep, state) → found ep = some state

theorem refusal_harmless {Outcome : Type} (error : IpcError) :
    (refusal error table : Answer Outcome).Harmless found table := by
  intro _ _
  exact ⟨rfl, fun _ _ same => by cases same⟩

theorem written_back {Outcome : Type} {ep : EndpointHandle} {state : EndpointState}
    (known : found ep = some state) (result : Except IpcError Outcome) :
    (⟨result, some (ep, state), table⟩ : Answer Outcome).Harmless found table := by
  intro _ _
  refine ⟨rfl, ?_⟩
  intro other later same
  cases same
  exact known

theorem succeeded_harmless {Outcome : Type} {outcome : Outcome}
    {write : Option (EndpointHandle × EndpointState)} {after : CapabilityTable} :
    (⟨.ok outcome, write, after⟩ : Answer Outcome).Harmless found table := by
  intro _ same
  cases same

theorem send_harmless : (sendAnswer found epCap msg transfer table).Harmless found table := by
  unfold sendAnswer
  split
  · next ep _ _ _ _ _ =>
      split
      · next state known =>
          unfold sendTo
          split
          · exact written_back known _
          · split
            · split
              · exact succeeded_harmless
              · exact succeeded_harmless
            · exact written_back known _
      · exact refusal_harmless _
  · exact refusal_harmless _
  · exact refusal_harmless _

theorem recv_harmless : (recvAnswer found epCap table).Harmless found table := by
  unfold recvAnswer
  split
  · next ep _ _ =>
      split
      · next state known =>
          unfold recvFrom
          split
          · exact written_back known _
          · split
            · split
              · exact succeeded_harmless
              · exact written_back known _
            · split
              · next waiting =>
                  rw [waiting] at known
                  exact written_back known _
              · exact succeeded_harmless
      · exact refusal_harmless _
  · exact refusal_harmless _

end Failures

/-! ## Reachable worlds -/

section Worlds

variable {Party : Type} [DecidableEq Party]

def emptyWorld : World Party where
  arena := new
  queues := IpcQueues.new
  tables := fun _ => CapTable.new

omit [DecidableEq Party] in
theorem empty_world_fresh : Fresh (emptyWorld : World Party) :=
  ⟨fun _ => CapTable.new_well_formed, new_well_formed, rfl⟩

/-- A call that does not destroy an endpoint with a parked capability. -/
def GuardedStep (build : Build) (world : World Party) (call : SystemCall Party)
    (after : World Party) : Prop :=
  SystemStep build world call after ∧ Guarded world call.op

/-- Guarded calls lead to this world from the empty one. -/
def Reachable (build : Build) (world : World Party) : Prop :=
  ∃ trace, Run (GuardedStep build) emptyWorld trace world

variable {build : Build} {world after : World Party}

theorem sound_of_guarded_run {trace : SystemTrace Party} (sound : Sound world)
    (run : Run (GuardedStep build) world trace after) : Sound after :=
  run_invariant sound
    (fun _ _ _ held step => (step.1.world_step held).sound held step.2) run

theorem Reachable.sound (reachable : Reachable build world) : Sound world := by
  rcases reachable with ⟨trace, run⟩
  exact sound_of_guarded_run empty_world_fresh.sound run

theorem Reachable.step (reachable : Reachable build world) {call : SystemCall Party}
    (step : SystemStep build world call after) (guarded : Guarded world call.op) :
    Reachable build after := by
  rcases reachable with ⟨trace, run⟩
  exact ⟨_, .snoc run ⟨step, guarded⟩⟩

/-- The world these calls lead to from the empty one. -/
def reached (build : Build) (ops : List (SystemOp Party)) : World Party :=
  ops.foldl (fun world op => (perform build op world).state?.getD world) emptyWorld

theorem reached_reachable (build : Build) {ops : List (SystemOp Party)}
    (kept : ∀ op ∈ ops, ∀ handle, op ≠ .destroyEndpoint handle) :
    Reachable build (reached build ops) := by
  induction ops using List.reverseRecOn with
  | nil => exact ⟨[], .nil⟩
  | append_singleton earlier op ih =>
      have before := ih fun other member => kept other (List.mem_append_left _ member)
      rcases perform_returns before.sound op with ⟨result, after, _, returned⟩
      have state := (returned build).state
      have same : reached build (earlier ++ [op]) = after := by
        unfold reached at state ⊢
        rw [List.foldl_append, List.foldl_cons, List.foldl_nil, state]
        rfl
      rw [same]
      apply @Reachable.step _ _ _ _ _ before ⟨op, result⟩ (returned build)
      intro handle isDestroy
      exact absurd isDestroy (kept op (by simp) handle)

instance (world : World Party) (op : SystemOp Party) : Decidable (Guarded world op) :=
  match op with
  | .destroyEndpoint handle =>
      decidable_of_iff ((stateAt world.queues handle).parked = none) (by
        constructor
        · intro drained _ same
          cases same
          exact drained
        · exact fun guarded => guarded handle rfl)
  | .createEndpoint _ => isTrue nofun
  | .table _ _ => isTrue nofun
  | .ipcSend _ _ _ _ => isTrue nofun
  | .ipcRecv _ _ => isTrue nofun

/-- The world a list of calls leads to. -/
def enactedTo (build : Build) (world : World Party) : List (SystemCall Party) → World Party
  | [] => world
  | call :: rest => enactedTo build ((perform build call.op world).state?.getD world) rest

def enacted (build : Build) (world : World Party) : List (SystemCall Party) → SystemTrace Party
  | [] => []
  | call :: rest =>
      let after := (perform build call.op world).state?.getD world
      ⟨world, call, after⟩ :: enacted build after rest

/-- The calls come back as they are written, and none destroys a parked capability. -/
def Enacts (build : Build) (trace : SystemTrace Party) : Prop :=
  ∀ taken ∈ trace, (perform build taken.label.op taken.before).report? = some taken.label.result ∧
    Guarded taken.before taken.label.op

instance (build : Build) (trace : SystemTrace Party) : Decidable (Enacts build trace) :=
  inferInstanceAs (Decidable (∀ taken ∈ trace, _))

theorem enacted_run {calls : List (SystemCall Party)}
    (enacts : Enacts build (enacted build world calls)) :
    Run (GuardedStep build) world (enacted build world calls) (enactedTo build world calls) := by
  induction calls generalizing world with
  | nil => exact .nil
  | cons call rest ih =>
      rcases enacts _ List.mem_cons_self with ⟨reported, guarded⟩
      have step : GuardedStep build world call ((perform build call.op world).state?.getD world) :=
        ⟨returned_of_report world reported, guarded⟩
      exact run_append (.snoc .nil step) (ih fun taken member => enacts taken (List.mem_cons_of_mem _ member))

/-! ## Failed calls -/

/-- The tables, the arena and the logical states of the live endpoints are the same. -/
structure Unchanged (world after : World Party) : Prop where
  tables : after.tables = world.tables
  arena : after.arena = world.arena
  queues : ∀ ep, Live world.arena ep.slot → stateAt after.queues ep = stateAt world.queues ep

/-- The capability cannot be transferred: it is stale, or lacks the right, or has
children. -/
def Untransferable (table : CapabilityTable) (xfer : CapHandle) : Prop :=
  ∀ entry, CapTable.Resolves table xfer entry →
    entry.capability.rights.contains .transfer = false ∨ entry.firstChild ≠ none

omit [DecidableEq Party] in
theorem overwrite_same {write : Option (EndpointHandle × EndpointState)}
    (back : ∀ ep state, write = some (ep, state) →
      incarnation world.arena world.queues ep = some state)
    {other : EndpointHandle} (live : Live world.arena other.slot) :
    stateAt (overwrite world.queues write) other = stateAt world.queues other := by
  rcases write with _ | ⟨ep, state⟩
  · rfl
  · rcases incarnation_some (back ep state rfl) with ⟨epLive, same⟩
    have bound : ep.slot.index < endpointArenaCapacity := epLive.in_range
    by_cases index : other.slot.index = ep.slot.index
    · rw [live_handle_unique live epLive index, overwrite, state_at_set_state bound, same]
    · exact state_at_other bound state index

theorem Answer.Harmless.unchanged {Outcome : Type} {answer : Answer Outcome} {party : Party}
    (harmless : answer.Harmless (incarnation world.arena world.queues) (world.tables party))
    {error : IpcError} (failed : answer.result = .error error) :
    Unchanged world (putBack world party (answer.applied (seenBy world party))) := by
  rcases harmless error failed with ⟨table, back⟩
  refine ⟨?_, rfl, ?_⟩
  · show Function.update world.tables party answer.table = world.tables
    rw [table, Function.update_eq_self]
  · intro ep live
    exact overwrite_same back live

theorem Sound.send_step (sound : Sound world) (build : Build) (party : Party)
    (epCap : CapHandle) (msg : Message) (transfer : Option CapHandle) :
    let answer := sendAnswer (incarnation world.arena world.queues) epCap msg transfer
      (world.tables party)
    SystemStep build world ⟨.ipcSend party epCap msg transfer, liftResult .ipc .sent answer.result⟩
      (putBack world party (answer.applied (seenBy world party))) :=
  lift_returned (@ipc_send_answers (seenBy world party) (sound.tables party)
    sound.attended.drained epCap msg transfer build)

theorem Sound.recv_step (sound : Sound world) (build : Build) (party : Party)
    (epCap : CapHandle) :
    let answer := recvAnswer (incarnation world.arena world.queues) epCap (world.tables party)
    SystemStep build world ⟨.ipcRecv party epCap, liftResult .ipc .received answer.result⟩
      (putBack world party (answer.applied (seenBy world party))) :=
  lift_returned (@ipc_recv_answers (seenBy world party) (sound.tables party)
    sound.attended.drained epCap build)

theorem send_untransferable {found : EndpointHandle → Option EndpointState}
    {epCap xfer : CapHandle} {ep : EndpointHandle} {state : EndpointState}
    {table : CapabilityTable} (names : Names table epCap .send ep) (known : found ep = some state)
    (empty : state.stored = none) (bad : Untransferable table xfer) (msg : Message) :
    (sendAnswer found epCap msg (some xfer) table).result = .error .invalidTransferCap := by
  have validated := validate_named names
  by_cases live : ∃ entry, CapTable.Resolves table xfer entry
  · rcases live with ⟨entry, resolves⟩
    have looked := CapTable.lookup_live resolves
    cases allowed : entry.capability.rights.contains .transfer with
    | false =>
        have unchecked : checkTransfer (some xfer) table = .err .invalidTransferCap table := by
          simp [checkTransfer, looked, allowed]
        simp [sendAnswer, validated, unchecked, refusal]
    | true =>
        have checked : checkTransfer (some xfer) table = .ok () table := by
          simp [checkTransfer, looked, allowed]
        rcases bad entry resolves with lacks | parent
        · rw [allowed] at lacks
          cases lacks
        · rcases Option.ne_none_iff_exists'.mp parent with ⟨child, hasChild⟩
          have kept : takeCapIfSome (some xfer) table = .err .invalidTransferCap table := by
            simp [takeCapIfSome, CapTable.cap_take_children resolves hasChild]
          simp [sendAnswer, validated, checked, known, sendTo, empty, kept]
  · have stale := CapTable.lookup_stale fun entry resolves => live ⟨entry, resolves⟩
    have unchecked : checkTransfer (some xfer) table = .err .invalidTransferCap table := by
      simp [checkTransfer, stale]
    simp [sendAnswer, validated, unchecked, refusal]

/-- From every reachable world, a send or a receive that fails leaves every table, the
arena and the logical state of every live endpoint as they were. In particular a
waiting receiver still waits after a send that nominates what cannot be transferred,
and a message and its capability stay parked after a receive into a full table. -/
theorem failed_ipc_changes_nothing (reachable : Reachable build world) :
    (∀ party epCap msg transfer error after,
      SystemStep build world ⟨.ipcSend party epCap msg transfer, .error error⟩ after →
        Unchanged world after) ∧
    (∀ party epCap error after,
      SystemStep build world ⟨.ipcRecv party epCap, .error error⟩ after →
        Unchanged world after) ∧
    (∀ party epCap msg xfer ep, Names (world.tables party) epCap .send ep →
      Live world.arena ep.slot → stateAt world.queues ep = .recvWaiting →
      Untransferable (world.tables party) xfer →
      ∃ after, SystemStep build world ⟨.ipcSend party epCap msg (some xfer),
          .error (.ipc .invalidTransferCap)⟩ after ∧ Unchanged world after ∧
        stateAt after.queues ep = .recvWaiting) ∧
    ∀ party epCap ep msg cap, Names (world.tables party) epCap .recv ep →
      Live world.arena ep.slot → (stateAt world.queues ep).stored = some (msg, some cap) →
      isFull (world.tables party) = true →
      ∃ after, SystemStep build world ⟨.ipcRecv party epCap,
          .error (.ipc .receiverTableFull)⟩ after ∧ Unchanged world after ∧
        (stateAt after.queues ep).stored = some (msg, some cap) := by
  have sound := reachable.sound
  refine ⟨?_, ?_, ?_, ?_⟩
  · intro party epCap msg transfer error after step
    rcases (sound.send_step build party epCap msg transfer).unique step with ⟨failed, same⟩
    rw [← same]
    cases result : (sendAnswer (incarnation world.arena world.queues) epCap msg transfer
      (world.tables party)).result with
    | ok outcome =>
        rw [result] at failed
        cases failed
    | error cause => exact send_harmless.unchanged result
  · intro party epCap error after step
    rcases (sound.recv_step build party epCap).unique step with ⟨failed, same⟩
    rw [← same]
    cases result : (recvAnswer (incarnation world.arena world.queues) epCap
      (world.tables party)).result with
    | ok outcome =>
        rw [result] at failed
        cases failed
    | error cause => exact recv_harmless.unchanged result
  · intro party epCap msg xfer ep names live waiting bad
    have known : incarnation world.arena world.queues ep = some .recvWaiting := by
      rw [← waiting]
      exact incarnation_live live
    have failed := send_untransferable names known rfl bad msg
    have step := sound.send_step build party epCap msg (some xfer)
    simp only [failed] at step
    have same := send_harmless.unchanged failed
    exact ⟨_, step, same, (same.queues ep live).trans waiting⟩
  · intro party epCap ep msg cap names live stored full
    have known : incarnation world.arena world.queues ep = some (stateAt world.queues ep) :=
      incarnation_live live
    have parked : (stateAt world.queues ep).parked = some cap := by
      simp [EndpointState.parked, stored]
    have failed : (recvAnswer (incarnation world.arena world.queues) epCap
        (world.tables party)).result = .error .receiverTableFull := by
      simp [recvAnswer, validate_named names, known, recvFrom, parked, full]
    have step := sound.recv_step build party epCap
    simp only [failed] at step
    have same := recv_harmless.unchanged failed
    refine ⟨_, step, same, ?_⟩
    rw [same.queues ep live]
    exact stored

end Worlds

def waitingOps : List (SystemOp Unit) :=
  [.createEndpoint ⟨7⟩, .table () (.insertRoot ⟨⟨127⟩, .endpoint ⟨⟨0, 0⟩⟩⟩), .ipcRecv () ⟨0, 0⟩]

theorem failed_ipc_changes_nothing_waiting :
    stateAt (reached ⟨true⟩ waitingOps).queues ⟨⟨0, 0⟩⟩ = .recvWaiting ∧
      ∃ after, SystemStep ⟨true⟩ (reached ⟨true⟩ waitingOps)
          ⟨.ipcSend () ⟨0, 0⟩ ⟨1, #v[2, 3, 4]⟩ (some ⟨5, 0⟩), .error (.ipc .invalidTransferCap)⟩
          after ∧
        Unchanged (reached ⟨true⟩ waitingOps) after := by
  have reachable : Reachable ⟨true⟩ (reached ⟨true⟩ waitingOps) :=
    reached_reachable ⟨true⟩ (by simp [waitingOps])
  have step : SystemStep ⟨true⟩ (reached ⟨true⟩ waitingOps)
      ⟨.ipcSend () ⟨0, 0⟩ ⟨1, #v[2, 3, 4]⟩ (some ⟨5, 0⟩), .error (.ipc .invalidTransferCap)⟩ _ :=
    returned_of_report (reached ⟨true⟩ waitingOps) (by decide +kernel)
  exact ⟨by decide +kernel, _, step,
    (failed_ipc_changes_nothing reachable).1 _ _ _ _ _ _ step⟩

end Tyrne.System
