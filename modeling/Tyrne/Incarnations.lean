import Tyrne.ArenaHistory
import Tyrne.Independence

/-!
# Endpoints that share a slot

A slot of the endpoint arena is used by one endpoint after another, and the queues keep
what the last of them left until somebody looks at the slot again. What a call through
a capability on an endpoint comes to follows from what was done through that very
endpoint before and from the caller's table; nothing an earlier endpoint of the slot
left behind shows.
-/

namespace Tyrne.System

open Tyrne.Lib.Effect
open Tyrne.Lib.Ledger (Book Answers)
open Tyrne.Lib.Runs
open Tyrne.Cap
open Tyrne.CapTable (CapabilityTable)
open Tyrne.ObjArena
open Tyrne.Ipc

set_option autoImplicit false

/-! ## What was done through an endpoint -/

/-- Something done through one endpoint. A send or a receive comes with the table of
its caller. -/
inductive EndpointEvent where
  | created
  | destroyed
  | sent (epCap : CapHandle) (msg : Message) (transfer : Option CapHandle)
      (table : CapabilityTable)
  | received (epCap : CapHandle) (table : CapabilityTable)

def stateAfter (found : Option EndpointState)
    (write : Option (EndpointHandle × EndpointState)) : Option EndpointState :=
  match write with
  | none => found
  | some (_, later) => some later

/-- The endpoint's state after the event, or nothing if it is not live. -/
def EndpointEvent.replayed (found : Option EndpointState) : EndpointEvent → Option EndpointState
  | .created => some .idle
  | .destroyed => none
  | .sent epCap msg transfer table =>
      stateAfter found (sendAnswer (fun _ => found) epCap msg transfer table).written
  | .received epCap table =>
      stateAfter found (recvAnswer (fun _ => found) epCap table).written

def replay (events : List EndpointEvent) : Option EndpointState :=
  events.foldl EndpointEvent.replayed none

section Traces

variable {Party : Type}

/-- What the transition did through `ep`, if it was made through it. -/
def eventAt (ep : EndpointHandle) (taken : Transition (World Party) (SystemCall Party)) :
    Option EndpointEvent :=
  match taken.label.op with
  | .createEndpoint _ => if taken.label.result = .ok (.created ep) then some .created else none
  | .destroyEndpoint handle => if handle = ep then some .destroyed else none
  | .ipcSend party epCap msg transfer =>
      if endpointAt (taken.before.tables party) epCap = some ep then
        some (.sent epCap msg transfer (taken.before.tables party))
      else none
  | .ipcRecv party epCap =>
      if endpointAt (taken.before.tables party) epCap = some ep then
        some (.received epCap (taken.before.tables party))
      else none
  | .table _ _ => none

def historyOf (ep : EndpointHandle) (trace : SystemTrace Party) : List EndpointEvent :=
  trace.filterMap (eventAt ep)

def Destroys (ep : EndpointHandle)
    (taken : Transition (World Party) (SystemCall Party)) : Prop :=
  taken.label.op = .destroyEndpoint ep ∧ ∃ reply, taken.label.result = .ok reply

/-! ## The arena of a run -/

def arenaCallOf (call : SystemCall Party) : Option (ArenaCall Endpoint) :=
  match call.op, call.result with
  | .createEndpoint endpoint, .ok (.created handle) =>
      some ⟨.allocate endpoint, .key (some handle.slot)⟩
  | .createEndpoint endpoint, .error _ => some ⟨.allocate endpoint, .key none⟩
  | .destroyEndpoint handle, .ok (.destroyed endpoint) =>
      some ⟨.free handle.slot, .value (some endpoint)⟩
  | .destroyEndpoint handle, .error _ => some ⟨.free handle.slot, .value none⟩
  | _, _ => none

def arenaTransition (taken : Transition (World Party) (SystemCall Party)) :
    Option (Transition EndpointArena (ArenaCall Endpoint)) :=
  (arenaCallOf taken.label).map fun call => ⟨taken.before.arena, call, taken.after.arena⟩

def arenaTrace (trace : SystemTrace Party) : ArenaTrace Endpoint endpointArenaCapacity :=
  trace.filterMap arenaTransition

def destroys (index : Index) (call : SystemCall Party) : Bool :=
  match call.op, call.result with
  | .destroyEndpoint handle, .ok _ => handle.slot.index == index
  | _, _ => false

def destroyedAt (index : Index) (trace : SystemTrace Party) : Nat :=
  trace.countP fun taken => destroys index taken.label

theorem destroyed_at_short {trace : SystemTrace Party} (short : trace.length < 2 ^ 32)
    (index : Index) : destroyedAt index trace < 2 ^ 32 :=
  Nat.lt_of_le_of_lt List.countP_le_length short

theorem freed_at_arena_trace (index : Index) (trace : SystemTrace Party) :
    freedAt index (arenaTrace trace) ≤ destroyedAt index trace := by
  unfold freedAt arenaTrace
  rw [List.countP_filterMap]
  apply List.countP_mono_left
  rintro ⟨before, ⟨op, result⟩, after⟩ _ freed
  simp only [arenaTransition, arenaCallOf] at freed
  split at freed
  · simp [frees] at freed
  · simp [frees] at freed
  · simpa [frees, destroys] using freed
  · simp [frees] at freed
  · simp at freed

variable [DecidableEq Party] {build : Build} {world after : World Party}
  {op : SystemOp Party} {result : Except SystemError SystemReply}

/-- Every call either is a call on the arena, or leaves it. -/
theorem WorldStep.arena_step (step : WorldStep world op result after) (sound : Sound world) :
    (∃ call, arenaCallOf ⟨op, result⟩ = some call ∧
        ArenaStep build world.arena call after.arena) ∨
      arenaCallOf ⟨op, result⟩ = none ∧ after.arena = world.arena := by
  cases step with
  | sent step => exact Or.inr ⟨rfl, step.touches.arena⟩
  | received step => exact Or.inr ⟨rfl, step.touches.arena⟩
  | created available vacant =>
      refine Or.inl ⟨_, rfl, ?_⟩
      simp [ArenaStep, ObjArena.perform, allocate_run sound.arena available]
  | arenaFull full =>
      refine Or.inl ⟨_, rfl, ?_⟩
      simp [ArenaStep, ObjArena.perform, allocate_full full]
  | destroyed stored own =>
      refine Or.inl ⟨_, rfl, ?_⟩
      simp [ArenaStep, ObjArena.perform, free_run stored own]
  | stale dead =>
      refine Or.inl ⟨_, rfl, ?_⟩
      simp [ArenaStep, ObjArena.perform, free_stale dead]
  | table returns => exact Or.inr ⟨rfl, rfl⟩

omit [DecidableEq Party] in
theorem arena_trace_snoc (trace : SystemTrace Party)
    (taken : Transition (World Party) (SystemCall Party)) :
    arenaTrace (trace ++ [taken]) = arenaTrace trace ++ (arenaTransition taken).toList :=
  filter_map_snoc arenaTransition trace taken

theorem arena_run {trace : SystemTrace Party}
    (run : Run (GuardedStep build) emptyWorld trace after) :
    Run (ArenaStep build) new (arenaTrace trace) after.arena := by
  induction run with
  | nil => exact .nil
  | @snoc earlier middle final call ran step ih =>
      have sound := sound_of_guarded_run empty_world_fresh.sound ran
      rw [arena_trace_snoc]
      rcases @WorldStep.arena_step _ _ build _ _ _ _ (step.1.world_step sound) sound with
        ⟨moved, isCall, arenaStep⟩ | ⟨noCall, same⟩
      · have transition : arenaTransition ⟨middle, call, final⟩ =
            some ⟨middle.arena, moved, final.arena⟩ := by
          simp only [arenaTransition]
          rw [isCall]
          rfl
        rw [transition]
        exact .snoc ih arenaStep
      · have transition : arenaTransition ⟨middle, call, final⟩ = none := by
          simp only [arenaTransition]
          rw [noCall]
          rfl
        rw [transition, same]
        simpa using ih

/-! ## Replaying an endpoint -/

theorem incarnation_overwrite {arena : EndpointArena} {queues : IpcQueues}
    {write : Option (EndpointHandle × EndpointState)} {table : CapabilityTable}
    {epCap : CapHandle}
    (writes : ∀ target later, write = some (target, later) →
      endpointAt table epCap = some target ∧
        ∃ before, incarnation arena queues target = some before)
    (ep : EndpointHandle) :
    incarnation arena (overwrite queues write) ep =
      if endpointAt table epCap = some ep then stateAfter (incarnation arena queues ep) write
      else incarnation arena queues ep := by
  rcases write with _ | ⟨target, later⟩
  · simp [overwrite, stateAfter]
  · rcases writes target later rfl with ⟨named, before, known⟩
    have live := (incarnation_some known).1
    have bound : target.slot.index < endpointArenaCapacity := live.in_range
    by_cases same : target = ep
    · subst same
      rw [if_pos named]
      rcases get_iff.mpr live with ⟨endpoint, found⟩
      simp [incarnation, found, overwrite, stateAfter, bound]
    · have other : endpointAt table epCap ≠ some ep := by
        rw [named]
        exact fun equal => same (Option.some.inj equal)
      rw [if_neg other]
      unfold incarnation
      cases found : get arena ep.slot with
      | none => rfl
      | some endpoint =>
          have different : ep.slot.index ≠ target.slot.index := fun index =>
            same (live_handle_unique (get_iff.mp ⟨endpoint, found⟩) live index).symm
          simp only [Option.map_some, overwrite, state_at_other bound later different]

def replayedAt (ep : EndpointHandle) (taken : Transition (World Party) (SystemCall Party))
    (found : Option EndpointState) : Option EndpointState :=
  match eventAt ep taken with
  | none => found
  | some event => event.replayed found

omit [DecidableEq Party] in
theorem replay_snoc (ep : EndpointHandle) (trace : SystemTrace Party)
    (taken : Transition (World Party) (SystemCall Party)) :
    replay (historyOf ep (trace ++ [taken])) =
      replayedAt ep taken (replay (historyOf ep trace)) := by
  unfold historyOf replayedAt replay
  cases happened : eventAt ep taken with
  | none => simp [happened]
  | some event => simp [happened]

omit [DecidableEq Party] in
theorem get_of_stored {handle : EndpointHandle} {endpoint : Endpoint}
    (stored : entryAt world.arena handle.slot.index = some endpoint)
    (own : generationAt world.arena handle.slot.index = handle.slot.generation) :
    get world.arena handle.slot = some endpoint := by
  rw [get_eq, if_pos own, stored]

omit [DecidableEq Party] in
theorem incarnation_created {head : Index} (bound : head < endpointArenaCapacity)
    (endpoint : Endpoint)
    (clean : stateAt world.queues ⟨⟨head, generationAt world.arena head⟩⟩ = .idle)
    (ep : EndpointHandle) :
    incarnation (store world.arena head endpoint) world.queues ep =
      if ep = ⟨⟨head, generationAt world.arena head⟩⟩ then some .idle
      else incarnation world.arena world.queues ep := by
  unfold incarnation
  rw [get_store bound]
  by_cases same : ep = ⟨⟨head, generationAt world.arena head⟩⟩
  · subst same
    simp [clean]
  · have different : ep.slot ≠ ⟨head, generationAt world.arena head⟩ := by
      intro slot
      apply same
      cases ep
      exact congrArg EndpointHandle.mk slot
    rw [Function.update_of_ne different, if_neg same]

omit [DecidableEq Party] in
theorem incarnation_destroyed {handle : EndpointHandle} {endpoint : Endpoint}
    (found : get world.arena handle.slot = some endpoint) (ep : EndpointHandle) :
    incarnation (release world.arena handle.slot.index) world.queues ep =
      if handle = ep then none else incarnation world.arena world.queues ep := by
  unfold incarnation
  rw [get_release found]
  by_cases same : handle = ep
  · subst same
    simp
  · have different : ep.slot ≠ handle.slot := by
      intro slot
      apply same
      cases ep
      cases handle
      exact congrArg EndpointHandle.mk slot.symm
    rw [Function.update_of_ne different, if_neg same]

theorem incarnation_applied {Outcome : Type} (answer : Answer Outcome) (party : Party)
    (ep : EndpointHandle) :
    incarnation (putBack world party (answer.applied (seenBy world party))).arena
        (putBack world party (answer.applied (seenBy world party))).queues ep =
      incarnation world.arena (overwrite world.queues answer.written) ep := rfl

theorem SystemStep.replayed {call : SystemCall Party} (step : SystemStep build world call after)
    (sound : Sound world)
    (clean : ∀ handle, call.result = .ok (.created handle) → stateAt world.queues handle = .idle)
    (ep : EndpointHandle) :
    incarnation after.arena after.queues ep =
      replayedAt ep ⟨world, call, after⟩ (incarnation world.arena world.queues ep) := by
  rcases call with ⟨op, result⟩
  cases op with
  | ipcSend party epCap msg transfer =>
      rcases (sound.send_step build party epCap msg transfer).unique step with ⟨_, final⟩
      subst final
      rw [incarnation_applied, incarnation_overwrite (fun _ _ => send_writes) ep]
      by_cases named : endpointAt (world.tables party) epCap = some ep
      · have same := @send_answer_congr (fun _ => incarnation world.arena world.queues ep)
          (incarnation world.arena world.queues) epCap msg transfer (world.tables party) (by
            intro other otherNamed
            cases named.symm.trans otherNamed
            rfl)
        simp only [replayedAt, eventAt, EndpointEvent.replayed, named, if_true, same]
      · simp only [replayedAt, eventAt, named, if_false]
  | ipcRecv party epCap =>
      rcases (sound.recv_step build party epCap).unique step with ⟨_, final⟩
      subst final
      rw [incarnation_applied, incarnation_overwrite (fun _ _ => recv_writes) ep]
      by_cases named : endpointAt (world.tables party) epCap = some ep
      · have same := @recv_answer_congr (fun _ => incarnation world.arena world.queues ep)
          (incarnation world.arena world.queues) epCap (world.tables party) (by
            intro other otherNamed
            cases named.symm.trans otherNamed
            rfl)
        simp only [replayedAt, eventAt, EndpointEvent.replayed, named, if_true, same]
      · simp only [replayedAt, eventAt, named, if_false]
  | createEndpoint endpoint =>
      have listed := step.world_step sound
      cases listed with
      | @created _ head available vacant =>
          rw [incarnation_created vacant.1 endpoint (clean _ rfl)]
          by_cases same : ep = ⟨⟨head, generationAt world.arena head⟩⟩
          · subst same
            simp [replayedAt, eventAt, EndpointEvent.replayed]
          · simp [replayedAt, eventAt, same, Ne.symm same]
      | arenaFull full => simp [replayedAt, eventAt]
  | destroyEndpoint handle =>
      have listed := step.world_step sound
      cases listed with
      | destroyed stored own =>
          rw [incarnation_destroyed (get_of_stored stored own)]
          by_cases same : handle = ep
          · simp [replayedAt, eventAt, EndpointEvent.replayed, same]
          · simp [replayedAt, eventAt, same]
      | stale dead =>
          by_cases same : handle = ep
          · subst same
            simp [replayedAt, eventAt, EndpointEvent.replayed, incarnation_dead dead]
          · simp [replayedAt, eventAt, same]
  | table party tableOp =>
      have listed := step.world_step sound
      cases listed with
      | table returns => rfl

/-! ## Runs -/

def endpointsOf (trace : SystemTrace Party) : Book SlotId Endpoint := ledgerOf (arenaTrace trace)

omit [DecidableEq Party] in
theorem endpoints_of_snoc (trace : SystemTrace Party)
    (taken : Transition (World Party) (SystemCall Party)) {id : SlotId}
    (known : id ∈ (endpointsOf trace).issued) : id ∈ (endpointsOf (trace ++ [taken])).issued := by
  unfold endpointsOf at known ⊢
  rw [arena_trace_snoc]
  cases arenaTransition taken with
  | none => simpa using known
  | some moved =>
      rw [Option.toList_some, ledger_of_snoc]
      exact Lib.Ledger.issued_record moved.label known

theorem WorldStep.queues_step (step : WorldStep world op result after) :
    after.queues = world.queues ∨ ∃ handle fresh, Live world.arena handle.slot ∧
      after.queues = setState world.queues handle fresh := by
  cases step with
  | sent step => exact step.touches.queues
  | received step => exact step.touches.queues
  | created available vacant => exact Or.inl rfl
  | arenaFull full => exact Or.inl rfl
  | destroyed stored own => exact Or.inl rfl
  | stale dead => exact Or.inl rfl
  | table returns => exact Or.inl rfl

omit [DecidableEq Party] in
theorem destroyed_at_front (index : Index) (front back : SystemTrace Party) :
    destroyedAt index front ≤ destroyedAt index (front ++ back) := by
  simp [destroyedAt, List.countP_append]

section Runs

variable {trace : SystemTrace Party}

theorem agrees_of_guarded_run (run : Run (GuardedStep build) emptyWorld trace after)
    (bounded : ∀ index, destroyedAt index trace < 2 ^ 32) :
    Agrees after.arena (endpointsOf trace) fun index => freedAt index (arenaTrace trace) :=
  agrees_of_run (arena_run run) fun index =>
    Nat.lt_of_le_of_lt (freed_at_arena_trace index trace) (bounded index)

/-- Whatever is left in a slot was left by an endpoint created before. -/
theorem left_by_created (run : Run (GuardedStep build) emptyWorld trace after)
    (bounded : ∀ index, destroyedAt index trace < 2 ^ 32) {index : Index}
    (busy : stateIn after.queues index ≠ .idle) :
    (⟨index, recordedIn after.queues index⟩ : SlotId) ∈ (endpointsOf trace).issued := by
  induction run with
  | nil => exact absurd (state_in_new index) busy
  | @snoc earlier middle final call ran step ih =>
      have sooner : ∀ index, destroyedAt index earlier < 2 ^ 32 := fun index =>
        Nat.lt_of_le_of_lt (destroyed_at_front index earlier _) (bounded index)
      have sound := sound_of_guarded_run empty_world_fresh.sound ran
      have agrees := agrees_of_guarded_run ran sooner
      apply endpoints_of_snoc
      rcases (step.1.world_step sound).queues_step with same | ⟨handle, fresh, live, written⟩
      · rw [same] at busy ⊢
        exact ih sooner busy
      · have inside : handle.slot.index < endpointArenaCapacity := live.in_range
        rw [written, state_in_set_state inside] at busy
        rw [written, recorded_in_set_state inside]
        by_cases here : index = handle.slot.index
        · subst here
          rw [Function.update_self]
          rcases get_iff.mpr live with ⟨endpoint, found⟩
          rw [agrees.resolves] at found
          exact agrees.consistent.known handle.slot endpoint found
        · rw [Function.update_of_ne here] at busy ⊢
          exact ih sooner busy

theorem created_clean (run : Run (GuardedStep build) emptyWorld trace world)
    (bounded : ∀ index, destroyedAt index trace < 2 ^ 32) {call : SystemCall Party}
    (step : SystemStep build world call after) {handle : EndpointHandle}
    (created : call.result = .ok (.created handle)) : stateAt world.queues handle = .idle := by
  have sound := sound_of_guarded_run empty_world_fresh.sound run
  have agrees := agrees_of_guarded_run run bounded
  have fresh : handle.slot ∉ (endpointsOf trace).issued := by
    rcases call with ⟨op, result⟩
    have reported : result = .ok (.created handle) := created
    have listed := step.world_step sound
    clear step created
    cases listed with
    | created available vacant =>
        cases reported
        exact agrees.fresh (Nat.lt_of_le_of_lt (freed_at_arena_trace _ trace) (bounded _)) vacant.2
    | sent step => rcases step <;> cases reported
    | received step => rcases step <;> cases reported
    | arenaFull full => cases reported
    | destroyed stored own => cases reported
    | stale dead => cases reported
    | @table _ _ inner _ returns => rcases inner <;> cases reported
  unfold stateAt
  split
  · next own =>
      by_contra busy
      apply fresh
      have left := left_by_created run bounded busy
      rw [own] at left
      exact left
  · rfl

theorem replayed_of_run (run : Run (GuardedStep build) emptyWorld trace after)
    (bounded : ∀ index, destroyedAt index trace < 2 ^ 32) (ep : EndpointHandle) :
    incarnation after.arena after.queues ep = replay (historyOf ep trace) := by
  induction run with
  | nil =>
      have dead : ¬ Live (emptyWorld : World Party).arena ep.slot := by
        rintro ⟨⟨endpoint, stored⟩, _⟩
        rw [show entryAt (emptyWorld : World Party).arena ep.slot.index = none from
          entry_at_new _] at stored
        cases stored
      exact incarnation_dead dead
  | @snoc earlier middle final call ran step ih =>
      have sooner : ∀ index, destroyedAt index earlier < 2 ^ 32 := fun index =>
        Nat.lt_of_le_of_lt (destroyed_at_front index earlier _) (bounded index)
      have sound := sound_of_guarded_run empty_world_fresh.sound ran
      rw [replay_snoc, ← ih sooner]
      exact step.1.replayed sound (fun handle => created_clean ran sooner step.1) ep

theorem SystemStep.destroyed {ep : EndpointHandle} {reply : SystemReply}
    (step : SystemStep build world ⟨.destroyEndpoint ep, .ok reply⟩ after)
    (sound : Sound world) :
    ∃ endpoint, get world.arena ep.slot = some endpoint ∧
      after.arena = release world.arena ep.slot.index := by
  have listed := step.world_step sound
  cases listed with
  | destroyed stored own => exact ⟨_, get_of_stored stored own, rfl⟩

theorem destroyed_gone (run : Run (GuardedStep build) emptyWorld trace after)
    (bounded : ∀ index, destroyedAt index trace < 2 ^ 32) {ep : EndpointHandle}
    {earlier : Transition (World Party) (SystemCall Party)} (member : earlier ∈ trace)
    (destroyed : Destroys ep earlier) : incarnation after.arena after.queues ep = none := by
  rcases List.append_of_mem member with ⟨front, back, whole⟩
  have split : trace = (front ++ [earlier]) ++ back := by simp [whole]
  rw [split] at run bounded
  rcases run_split run with ⟨middle, upTo, _⟩
  have sooner : ∀ index, destroyedAt index (front ++ [earlier]) < 2 ^ 32 := fun index =>
    Nat.lt_of_le_of_lt (destroyed_at_front index _ back) (bounded index)
  have before : ∀ index, destroyedAt index front < 2 ^ 32 := fun index =>
    Nat.lt_of_le_of_lt (destroyed_at_front index front _) (sooner index)
  rcases run_at upTo with ⟨early, step⟩
  have sound := sound_of_guarded_run empty_world_fresh.sound early
  have agreed := agrees_of_guarded_run early before
  have nowAgreed := agrees_of_guarded_run (.snoc early step) sooner
  rcases destroyed with ⟨isDestroy, reply, succeeded⟩
  have call : earlier.label = ⟨.destroyEndpoint ep, .ok reply⟩ := by
    rw [← isDestroy, ← succeeded]
  have taken : SystemStep build earlier.before ⟨.destroyEndpoint ep, .ok reply⟩ earlier.after :=
    call ▸ step.1
  rcases taken.destroyed sound with ⟨endpoint, live, released⟩
  have known : ep.slot ∈ (endpointsOf front).issued := by
    rw [agreed.resolves] at live
    exact agreed.consistent.known ep.slot endpoint live
  have empty : (endpointsOf (front ++ [earlier])).held ep.slot = none := by
    have nothing := congrFun (get_release live) ep.slot
    rw [← released, nowAgreed.resolves, Function.update_self] at nothing
    exact nothing
  have arenaRun := arena_run run
  have arenaBounded : ∀ index, freedAt index (arenaTrace ((front ++ [earlier]) ++ back)) < 2 ^ 32 :=
    fun index => Nat.lt_of_le_of_lt (freed_at_arena_trace index _) (bounded index)
  have appended : arenaTrace ((front ++ [earlier]) ++ back) =
      arenaTrace (front ++ [earlier]) ++ arenaTrace back := List.filterMap_append
  have finallyAgreed := agrees_of_guarded_run run bounded
  rw [appended] at arenaRun arenaBounded
  have gone := (gone_of_run arenaRun arenaBounded (endpoints_of_snoc front earlier known) empty).2
  rw [← appended] at gone
  have missing : get after.arena ep.slot = none := by
    rw [finallyAgreed.resolves]
    exact gone
  simp [incarnation, missing]

end Runs

/-! ## Isolation -/

/-- The capability nominated for the transfer is stale or lacks the right to be
transferred. -/
def Unchecked (table : CapabilityTable) (transfer : Option CapHandle) : Prop :=
  ∃ xfer, transfer = some xfer ∧ ∀ entry, CapTable.Resolves table xfer entry →
    entry.capability.rights.contains .transfer = false

theorem unchecked_of_failed {table : CapabilityTable} {transfer : Option CapHandle}
    (failed : checkTransfer transfer table = .err .invalidTransferCap table) :
    Unchecked table transfer := by
  cases transfer with
  | none => cases failed
  | some xfer =>
      refine ⟨xfer, rfl, ?_⟩
      intro entry resolves
      cases allowed : entry.capability.rights.contains .transfer with
      | false => rfl
      | true => simp [checkTransfer, CapTable.lookup_live resolves, allowed] at failed

theorem send_to_dead {found : EndpointHandle → Option EndpointState} {epCap : CapHandle}
    {msg : Message} {transfer : Option CapHandle} {table : CapabilityTable}
    (dead : ∀ ep, endpointAt table epCap = some ep → found ep = none) :
    (sendAnswer found epCap msg transfer table).result = .error .invalidCapability ∨
      (sendAnswer found epCap msg transfer table).result = .error .invalidTransferCap ∧
        Unchecked table transfer := by
  unfold sendAnswer
  rcases @validate_cases table epCap .send with ⟨ep, names, validated⟩ | ⟨_, refused⟩
  · rcases @check_transfer_cases table transfer with checked | failed
    · simp only [validated, checked, dead ep (endpoint_at_named names)]
      exact Or.inl rfl
    · simp only [validated, failed]
      exact Or.inr ⟨rfl, unchecked_of_failed failed⟩
  · simp only [refused]
    exact Or.inl rfl

theorem recv_from_dead {found : EndpointHandle → Option EndpointState} {epCap : CapHandle}
    {table : CapabilityTable} (dead : ∀ ep, endpointAt table epCap = some ep → found ep = none) :
    (recvAnswer found epCap table).result = .error .invalidCapability := by
  unfold recvAnswer
  rcases @validate_cases table epCap .recv with ⟨ep, names, validated⟩ | ⟨_, refused⟩
  · simp only [validated, dead ep (endpoint_at_named names)]
    rfl
  · simp only [refused]
    rfl

section Named

variable {world : World Party} {party : Party} {epCap : CapHandle} {ep : EndpointHandle}
  {state : Option EndpointState} {result : Except SystemError SystemReply} (sound : Sound world)
  (named : endpointAt (world.tables party) epCap = some ep)
  (logical : incarnation world.arena world.queues ep = state)
include sound named logical

omit [DecidableEq Party] sound in
theorem only_named (other : EndpointHandle)
    (otherNamed : endpointAt (world.tables party) epCap = some other) :
    incarnation world.arena world.queues other = state := by
  cases otherNamed.symm.trans named
  exact logical

/-- A send through a capability that names `ep` depends on the logical state of `ep` and on
the caller's table. If `ep` is not live it is refused and writes no queue. -/
theorem send_isolated {msg : Message} {transfer : Option CapHandle}
    (step : SystemStep build world ⟨.ipcSend party epCap msg transfer, result⟩ after) :
    let answer := sendAnswer (fun _ => state) epCap msg transfer (world.tables party)
    result = liftResult .ipc .sent answer.result ∧ after.tables party = answer.table ∧
      (state = none →
        (result = .error (.ipc .invalidCapability) ∨
          result = .error (.ipc .invalidTransferCap) ∧
            Unchecked (world.tables party) transfer) ∧
        after.queues = world.queues) := by
  intro answer
  have only := only_named named logical
  have own : sendAnswer (incarnation world.arena world.queues) epCap msg transfer
      (world.tables party) = answer := send_answer_congr only
  rcases (sound.send_step build party epCap msg transfer).unique step with ⟨rfl, rfl⟩
  rw [own]
  refine ⟨rfl, put_back_table _ _ _, ?_⟩
  rintro rfl
  have untouched : answer.written = none := by
    cases wrote : answer.written with
    | none => rfl
    | some write =>
        rcases send_writes (own ▸ wrote) with ⟨target, before, known⟩
        cases (only _ target).symm.trans known
  refine ⟨?_, congrArg (overwrite world.queues) untouched⟩
  rcases send_to_dead only with refused | ⟨refused, bad⟩
  · exact Or.inl (congrArg (liftResult .ipc .sent) (own ▸ refused))
  · exact Or.inr ⟨congrArg (liftResult .ipc .sent) (own ▸ refused), bad⟩

theorem recv_isolated
    (step : SystemStep build world ⟨.ipcRecv party epCap, result⟩ after) :
    let answer := recvAnswer (fun _ => state) epCap (world.tables party)
    result = liftResult .ipc .received answer.result ∧ after.tables party = answer.table ∧
      (state = none →
        result = .error (.ipc .invalidCapability) ∧ after.queues = world.queues) := by
  intro answer
  have only := only_named named logical
  have own : recvAnswer (incarnation world.arena world.queues) epCap
      (world.tables party) = answer := recv_answer_congr only
  rcases (sound.recv_step build party epCap).unique step with ⟨rfl, rfl⟩
  rw [own]
  refine ⟨rfl, put_back_table _ _ _, ?_⟩
  rintro rfl
  have untouched : answer.written = none := by
    cases wrote : answer.written with
    | none => rfl
    | some write =>
        rcases recv_writes (own ▸ wrote) with ⟨target, before, known⟩
        cases (only _ target).symm.trans known
  refine ⟨?_, congrArg (overwrite world.queues) untouched⟩
  exact congrArg (liftResult .ipc .received) (own ▸ recv_from_dead only)

end Named

/-- Along every run from the empty world in which no slot is freed 2^32 times: a send or
a receive through a capability that names `ep` comes to what the endpoint answers after
the events of its own history, on the caller's table. A new endpoint answers as an idle
one. Once `ep` was destroyed, a call through it comes back with `InvalidCapability`, or
with `InvalidTransferCap` for a send that nominates what it may not transfer, and leaves
the queues as they were. -/
theorem incarnations_isolated {trace : SystemTrace Party}
    (run : Run (GuardedStep build) emptyWorld trace after)
    (bounded : ∀ index, destroyedAt index trace < 2 ^ 32)
    {front back : SystemTrace Party} {taken : Transition (World Party) (SystemCall Party)}
    (whole : trace = front ++ taken :: back) (ep : EndpointHandle) :
    (∀ party epCap msg transfer, taken.label.op = .ipcSend party epCap msg transfer →
      endpointAt (taken.before.tables party) epCap = some ep →
      let answer := sendAnswer (fun _ => replay (historyOf ep front)) epCap msg transfer
        (taken.before.tables party)
      taken.label.result = liftResult .ipc .sent answer.result ∧
        taken.after.tables party = answer.table ∧
        ((∃ earlier ∈ front, Destroys ep earlier) →
          (taken.label.result = .error (.ipc .invalidCapability) ∨
            taken.label.result = .error (.ipc .invalidTransferCap) ∧
              Unchecked (taken.before.tables party) transfer) ∧
          taken.after.queues = taken.before.queues)) ∧
    (∀ party epCap, taken.label.op = .ipcRecv party epCap →
      endpointAt (taken.before.tables party) epCap = some ep →
      let answer := recvAnswer (fun _ => replay (historyOf ep front)) epCap
        (taken.before.tables party)
      taken.label.result = liftResult .ipc .received answer.result ∧
        taken.after.tables party = answer.table ∧
        ((∃ earlier ∈ front, Destroys ep earlier) →
          taken.label.result = .error (.ipc .invalidCapability) ∧
          taken.after.queues = taken.before.queues)) ∧
    ((historyOf ep front).getLast? = some .created → replay (historyOf ep front) = some .idle) := by
  subst whole
  rcases run_at run with ⟨early, step⟩
  have sooner : ∀ index, destroyedAt index front < 2 ^ 32 := fun index =>
    Nat.lt_of_le_of_lt (destroyed_at_front index front _) (bounded index)
  have sound := sound_of_guarded_run empty_world_fresh.sound early
  have replayed := replayed_of_run early sooner ep
  have gone : (∃ earlier ∈ front, Destroys ep earlier) → replay (historyOf ep front) = none := by
    rintro ⟨earlier, member, destroyed⟩
    exact replayed.symm.trans (destroyed_gone early sooner member destroyed)
  rcases taken with ⟨world, ⟨op, result⟩, final⟩
  refine ⟨?_, ?_, ?_⟩
  · intro party epCap msg transfer isSend named answer
    have isOp : op = .ipcSend party epCap msg transfer := isSend
    subst isOp
    rcases send_isolated sound named replayed step.1 with ⟨answered, table, refused⟩
    exact ⟨answered, table, fun wasDestroyed => refused (gone wasDestroyed)⟩
  · intro party epCap isRecv named answer
    have isOp : op = .ipcRecv party epCap := isRecv
    subst isOp
    rcases recv_isolated sound named replayed step.1 with ⟨answered, table, refused⟩
    exact ⟨answered, table, fun wasDestroyed => refused (gone wasDestroyed)⟩
  · intro justCreated
    rcases List.getLast?_eq_some_iff.mp justCreated with ⟨events, listed⟩
    rw [listed]
    simp [replay, EndpointEvent.replayed]

end Traces

def retirement : List (SystemCall Unit) :=
  [⟨.createEndpoint ⟨7⟩, .ok (.created ⟨⟨0, 0⟩⟩)⟩,
    ⟨.table () (.insertRoot ⟨⟨127⟩, .endpoint ⟨⟨0, 0⟩⟩⟩), .ok (.table (.handle ⟨0, 0⟩))⟩,
    ⟨.ipcRecv () ⟨0, 0⟩, .ok (.received .pending)⟩,
    ⟨.destroyEndpoint ⟨⟨0, 0⟩⟩, .ok (.destroyed ⟨7⟩)⟩,
    ⟨.createEndpoint ⟨8⟩, .ok (.created ⟨⟨0, 1⟩⟩)⟩]

def retiredWorld : World Unit :=
  enactedTo ⟨true⟩ emptyWorld retirement

theorem retirement_run :
    Run (GuardedStep ⟨true⟩) emptyWorld (enacted ⟨true⟩ emptyWorld retirement) retiredWorld :=
  enacted_run (by decide +kernel)

theorem retirement_destroys :
    ∃ earlier ∈ enacted ⟨true⟩ emptyWorld retirement, Destroys ⟨⟨0, 0⟩⟩ earlier :=
  ⟨_, List.mem_of_getElem? (i := 3) rfl, rfl, _, rfl⟩

theorem incarnations_isolated_reused_slot :
    endpointAt (retiredWorld.tables ()) ⟨0, 0⟩ = some ⟨⟨0, 0⟩⟩ ∧
      ∃ after, SystemStep ⟨true⟩ retiredWorld
          ⟨.ipcSend () ⟨0, 0⟩ ⟨1, #v[2, 3, 4]⟩ none, .error (.ipc .invalidCapability)⟩ after ∧
        after.queues = retiredWorld.queues := by
  have named : endpointAt (retiredWorld.tables ()) ⟨0, 0⟩ = some ⟨⟨0, 0⟩⟩ := by decide +kernel
  have step : GuardedStep ⟨true⟩ retiredWorld
      ⟨.ipcSend () ⟨0, 0⟩ ⟨1, #v[2, 3, 4]⟩ none, .error (.ipc .invalidCapability)⟩ _ :=
    ⟨returned_of_report retiredWorld (by decide +kernel), nofun⟩
  have run := retirement_run.snoc step
  have isolated := incarnations_isolated run (destroyed_at_short (by decide)) rfl ⟨⟨0, 0⟩⟩
  rcases isolated.1 () ⟨0, 0⟩ _ none rfl named with ⟨_, _, dead⟩
  exact ⟨named, _, step.1, (dead retirement_destroys).2⟩

/-- The capability to transfer is checked before the endpoint: a send through a destroyed
endpoint that nominates a stale handle is not refused with `InvalidCapability`. -/
theorem destroyed_endpoint_wrong_transfer :
    Run (GuardedStep ⟨true⟩) emptyWorld (enacted ⟨true⟩ emptyWorld retirement) retiredWorld ∧
      (∃ earlier ∈ enacted ⟨true⟩ emptyWorld retirement, Destroys ⟨⟨0, 0⟩⟩ earlier) ∧
      endpointAt (retiredWorld.tables ()) ⟨0, 0⟩ = some ⟨⟨0, 0⟩⟩ ∧
      (∀ index, destroyedAt index (enacted ⟨true⟩ emptyWorld retirement) < 2 ^ 32) ∧
      ∃ after, SystemStep ⟨true⟩ retiredWorld
        ⟨.ipcSend () ⟨0, 0⟩ ⟨1, #v[2, 3, 4]⟩ (some ⟨5, 0⟩), .error (.ipc .invalidTransferCap)⟩
        after :=
  ⟨retirement_run, retirement_destroys, by decide +kernel, destroyed_at_short (by decide), _,
    returned_of_report retiredWorld (by decide +kernel)⟩

end Tyrne.System
