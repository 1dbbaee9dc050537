import Tyrne.IdleTask
import Tyrne.Lib.Fifo

/-!
# Order of dispatch

`start`, `yield_now`, the yield inside `ipc_send_and_yield` and a blocking
`ipc_recv_and_yield` each take the head of the ready queue and make it current. Tasks
come into the queue by registration, when they are woken, and when they yield. They
are served in turn: a place in the queue says at which dispatch its task runs. With a
task that only yields the queue is never empty when another task blocks.
-/

namespace Tyrne.Sched

open Tyrne.Lib.Effect
open Tyrne.Lib.Runs
open Tyrne.Lib.Fifo
open Tyrne.Cap
open Tyrne.System (World)

set_option autoImplicit false

variable {Party Context Machine : Type}

/-! ## Entries and dispatches -/

/-- The caller yielded, in `yield_now` or after the delivery of a message. -/
def callerYields : Event Party Machine → Except SchedError Reply → Bool
  | .call .yieldNow, .ok _ => true
  | .call (.ipcSendAndYield _ _ _ _), .ok .switched => true
  | .call (.ipcSendAndYield _ _ _ _), .ok (.sent .delivered) => true
  | _, _ => false

def dispatches : Event Party Machine → Except SchedError Reply → Bool
  | .call (.ipcRecvAndYield _ _), .ok .switched => true
  | event, result => callerYields event result

def awoken (before after : Roster) : List TaskHandle :=
  (List.range taskArenaCapacity).filterMap fun idx =>
    match before.states idx, after.states idx with
    | .blocked _, .ready => before.handles idx
    | _, _ => none

section Rosters

variable (event : Event Party Machine) (result : Except SchedError Reply)

def entering (before after : Roster) : List TaskHandle :=
  awoken before after ++ if callerYields event result then [before.current] else []

def leaving (after : Roster) : List TaskHandle :=
  if dispatches event result then [after.current] else []

end Rosters

def enqueuedAt
    (taken : Transition (Kernel Party Context Machine) (KernelLabel Party Machine)) :
    List TaskHandle :=
  entering taken.label.event taken.label.result (rosterOf taken.before.sched)
    (rosterOf taken.after.sched)

/-- The task that was taken from the ready queue at a transition, if one was. -/
def dispatchedAt
    (taken : Transition (Kernel Party Context Machine) (KernelLabel Party Machine)) :
    List TaskHandle :=
  leaving taken.label.event taken.label.result (rosterOf taken.after.sched)

def enqueued (trace : KernelTrace Party Context Machine) : List TaskHandle :=
  trace.flatMap enqueuedAt

def dispatched (trace : KernelTrace Party Context Machine) : List TaskHandle :=
  trace.flatMap dispatchedAt

/-! ## Who is woken -/

section Woken

variable {roster after : Roster}

theorem awoken_nil (nobody : ∀ idx ep, roster.states idx = .blocked ep →
    after.states idx ≠ .ready) : awoken roster after = [] := by
  apply List.filterMap_eq_nil_iff.mpr
  intro idx _
  cases before : roster.states idx with
  | idle => rfl
  | ready => rfl
  | blocked ep =>
      cases later : after.states idx with
      | idle => rfl
      | ready => exact absurd later (nobody idx ep before)
      | blocked _ => rfl

theorem awoken_same (same : after.states = roster.states) : awoken roster after = [] := by
  apply awoken_nil
  intro idx ep blocked isReady
  rw [same, blocked] at isReady
  cases isReady

theorem awoken_block (ep : EndpointHandle) : awoken roster (roster.block ep) = [] := by
  cases line : roster.ready with
  | nil => exact awoken_same (by simp only [Roster.block, line])
  | cons next rest =>
      apply awoken_nil
      intro idx on blocked isReady
      rw [Roster.states_block roster ep (by simp [line])] at isReady
      by_cases same : idx = slotOf roster.current
      · rw [same, Function.update_self] at isReady
        cases isReady
      · rw [Function.update_of_ne same, blocked] at isReady
        cases isReady

theorem filter_map_single {Item : Type} {pick : Index → Option Item} {chosen : Index}
    {item : Item} {indices : List Index} (distinct : indices.Nodup) (member : chosen ∈ indices)
    (picked : pick chosen = some item) (others : ∀ idx, idx ≠ chosen → pick idx = none) :
    indices.filterMap pick = [item] := by
  rcases List.append_of_mem member with ⟨front, back, rfl⟩
  have apart := List.nodup_middle.mp distinct
  have skipped : ∀ part : List Index, (∀ idx ∈ part, idx ∈ front ++ back) →
      part.filterMap pick = [] := by
    intro part inside
    apply List.filterMap_eq_nil_iff.mpr
    intro idx isIn
    apply others
    intro same
    exact (List.nodup_cons.mp apart).1 (same ▸ inside idx isIn)
  have before := skipped front fun idx isIn => List.mem_append_left _ isIn
  have behind := skipped back fun idx isIn => List.mem_append_right _ isIn
  simp [List.filterMap_append, before, behind, picked]

/-- `unblock_receiver_on` puts the task that it wakes at the end of the line. -/
theorem Orderly.awoken_wake (orderly : Orderly roster) (ep : EndpointHandle) :
    (roster.wake ep).ready = roster.ready ++ awoken roster (roster.wake ep) := by
  cases found : roster.waiterOn ep with
  | none =>
      have same := wake_none found
      rw [same, awoken_same rfl, List.append_nil]
  | some idx =>
      have blocked := waiter_blocked found
      rcases orderly.wake_some found with ⟨handle, known, woken⟩
      have inRange := (orderly.home idx handle known).2
      have single : awoken roster (roster.wake ep) = [handle] := by
        apply filter_map_single List.nodup_range (List.mem_range.mpr inRange)
        · simp [woken, Roster.rejoin, blocked, known]
        · intro other different
          rw [woken]
          simp only [Roster.rejoin, Function.update_of_ne different]
          cases roster.states other with
          | idle => rfl
          | ready => rfl
          | blocked _ => rfl
      rw [single, woken]
      rfl

end Woken

/-! ## Single steps -/

section Steps

variable {view next : View Party} {event : Event Party Machine}
  {result : Except SchedError Reply}

theorem dispatches_of_yields (yielded : callerYields event result = true) :
    dispatches event result = true := by
  unfold dispatches
  split
  · rfl
  · exact yielded

theorem turned_yields (event : Event Party Machine) (alone : Reply) (woken : View Party)
    (reports : ∀ reply, reply = .switched ∨ reply = alone →
      callerYields event (.ok reply) = true) :
    callerYields event (.ok (woken.turned alone)) = true := by
  apply reports
  cases line : woken.roster.ready with
  | nil => exact Or.inr (by simp only [View.turned, line])
  | cons first rest => exact Or.inl (by simp only [View.turned, line])

theorem View.turn_in_turn (view : View Party) (suspend : Frame Party) :
    InTurn view.roster.ready [view.roster.current] [(view.turn suspend).roster.current]
      (view.turn suspend).roster.ready :=
  (View.runnable_turn view suspend).symm

/-- The ready queue is served in turn, and control goes to another task only from it. -/
structure Served (event : Event Party Machine) (result : Except SchedError Reply)
    (before after : Roster) : Prop where
  line : InTurn before.ready (entering event result before after) (leaving event result after)
    after.ready
  stays : dispatches event result = false → after.current = before.current

theorem served_idly {before after : Roster} (same : after = before)
    (kept : dispatches event result = false) : Served event result before after := by
  subst same
  have quiet : callerYields event result = false := by
    cases yielded : callerYields event result with
    | false => rfl
    | true => exact absurd (dispatches_of_yields yielded) (by simp [kept])
  refine ⟨?_, fun _ => rfl⟩
  simp [InTurn, entering, leaving, quiet, kept, awoken_same]

/-- The caller yields after the tasks it woke have joined the line. -/
theorem served_yield {before : Roster} {woken : View Party} (suspend : Frame Party)
    (yielded : callerYields event result = true) (caller : woken.roster.current = before.current)
    (joined : woken.roster.ready = before.ready ++ awoken before woken.roster) :
    Served event result before (woken.turn suspend).roster := by
  have dispatched := dispatches_of_yields yielded
  have same : awoken before (woken.turn suspend).roster = awoken before woken.roster := by
    unfold awoken
    rw [View.states_turn]
  have turn := View.turn_in_turn woken suspend
  refine ⟨?_, fun kept => absurd dispatched (by simp [kept])⟩
  unfold entering leaving InTurn at *
  rw [if_pos yielded, if_pos dispatched, same, ← List.append_assoc, ← joined, ← caller]
  exact turn

variable [DecidableEq Party] {build : Build}

theorem ViewStep.served (step : ViewStep build view event result next)
    (orderly : Orderly view.roster) : Served event result view.roster next.roster := by
  cases step with
  | yielded rest =>
      apply served_yield _ (turned_yields _ .yielded view fun _ _ => rfl) rfl
      rw [awoken_same rfl, List.append_nil]
  | @sent party epCap msg transfer outcome world rest sends quiet =>
      apply served_idly rfl
      rcases outcome with error | value
      · rfl
      · cases value with
        | delivered => exact absurd rfl quiet
        | enqueued => rfl
  | @delivered party epCap msg transfer ep world woken guard rest resolves sends wakes =>
      subst wakes
      apply served_yield _ (turned_yields _ (.sent .delivered) _ ?_) (Roster.current_wake _ _)
      · exact orderly.awoken_wake ep
      · rintro reply (switched | alone)
        · rw [switched]
          rfl
        · rw [alone]
          rfl
  | @received party epCap outcome world rest receives done =>
      apply served_idly rfl
      rcases outcome with error | value
      · rfl
      · rfl
  | deadlocked rest receives alone => exact served_idly rfl rfl
  | @blocked party epCap ep world guard rest resolves receives others =>
      rcases List.exists_cons_of_ne_nil others with ⟨first, behind, line⟩
      have taken : view.roster.ready = (view.roster.block ep).runnable := by
        simp only [Roster.block, Roster.runnable, line]
      refine ⟨?_, fun kept => by cases kept⟩
      unfold entering leaving
      rw [awoken_block]
      simpa [InTurn, callerYields, dispatches, Roster.runnable] using taken
  | backFromYield suspended => exact served_idly rfl rfl
  | backFromSend suspended => exact served_idly rfl rfl
  | collected suspended receives done => exact served_idly rfl rfl
  | pendingAfterResume suspended receives => exact served_idly rfl rfl
  | elsewhere rest => exact served_idly rfl rfl

end Steps

/-! ## Runs -/

section Runs

variable [DecidableEq Party] {cpu : Cpu Context Machine} {build : Build}
  {kernel after : Kernel Party Context Machine} {trace : KernelTrace Party Context Machine}

theorem intact_preserved (before : Kernel Party Context Machine)
    (label : KernelLabel Party Machine) (later : Kernel Party Context Machine)
    (intact : Intact before) (step : KernelStep cpu build before label later) : Intact later :=
  (step.view_step intact).1

theorem KernelStep.served {label : KernelLabel Party Machine} (intact : Intact kernel)
    (step : KernelStep cpu build kernel label after) :
    Served label.event label.result (rosterOf kernel.sched) (rosterOf after.sched) :=
  (step.view_step intact).2.served intact.orderly

theorem run_served (intact : Intact kernel) (run : Run (KernelStep cpu build) kernel trace after) :
    InTurn (lineOf kernel.sched.ready) (enqueued trace) (dispatched trace)
      (lineOf after.sched.ready) := by
  have law := @run_in_turn _ _ _ (KernelStep cpu build)
    (fun kernel : Kernel Party Context Machine => lineOf kernel.sched.ready) enqueuedAt
    dispatchedAt Intact kernel after trace intact intact_preserved
    (fun _ _ _ intact step => (step.served intact).line) run
  exact law

theorem KernelStep.dispatch {label : KernelLabel Party Machine} (intact : Intact kernel)
    (step : KernelStep cpu build kernel label after) :
    (dispatchedAt ⟨kernel, label, after⟩ = [] ∧ after.sched.current = kernel.sched.current) ∨
      ∃ task, dispatchedAt ⟨kernel, label, after⟩ = [task] ∧
        after.sched.current = some task := by
  have reached := intact_preserved _ _ _ intact step
  cases dispatched : dispatches label.event label.result with
  | false =>
      refine Or.inl ⟨by simp [dispatchedAt, leaving, dispatched], ?_⟩
      rw [intact.shows.current, reached.shows.current, (step.served intact).stays dispatched]
  | true =>
      exact Or.inr ⟨_, by simp [dispatchedAt, leaving, dispatched], reached.shows.current⟩

omit [DecidableEq Party] in
theorem Intact.line_nodup (intact : Intact kernel) : (lineOf kernel.sched.ready).Nodup := by
  have distinct := intact.orderly.distinct
  rw [Roster.runnable, List.map_cons, List.nodup_cons] at distinct
  exact List.Nodup.of_map slotOf distinct.2

end Runs

section Boot

variable [DecidableEq Party] (cpu : Cpu Context Machine) (build : Build) (world : World Party)
  (machine : Machine) {registrations : List Registration}

/-- Boot dispatches the first task registered. From then on the tasks dispatched are
the first of those enqueued, in the same order, and the others are in the ready queue;
the current task changes only by a dispatch; and a task that stands at some place of
the ready queue is dispatched when that many others have been and not before, and moves
up by one for each dispatch until then. -/
theorem fifo_dispatch (anyone : registrations ≠ [])
    (registrable : Registrable (registrations.map Registration.handle)) :
    ∃ booted first, start cpu registrations (powerOn cpu world machine) = .ok () booted ∧
      booted.sched.current = some first ∧
      ∀ front middle, Run (KernelStep cpu build) booted front middle →
        registrations.map Registration.handle ++ enqueued front =
            (first :: dispatched front) ++ lineOf middle.sched.ready ∧
        first :: dispatched front <+: registrations.map Registration.handle ++ enqueued front ∧
        ∀ back after, Run (KernelStep cpu build) middle back after →
          (∀ taken ∈ back,
            (dispatchedAt taken = [] ∧
              taken.after.sched.current = taken.before.sched.current) ∨
            ∃ task, dispatchedAt taken = [task] ∧ taken.after.sched.current = some task) ∧
          ∀ place task, (lineOf middle.sched.ready)[place]? = some task →
            ((dispatched back).length ≤ place →
              (lineOf after.sched.ready)[place - (dispatched back).length]? = some task) ∧
            (place < (dispatched back).length →
              (dispatched back)[place]? = some task ∧ task ∉ (dispatched back).take place) := by
  rcases boot_run cpu world machine anyone registrable with
    ⟨booted, first, rest, ran, handles, intact, shown⟩
  have roster : rosterOf booted.sched = startingRoster first rest :=
    congrArg View.roster shown
  have waiting : lineOf booted.sched.ready = rest := congrArg Roster.ready roster
  refine ⟨booted, first, ran, ?_, ?_⟩
  · rw [intact.current_iff, roster]
    rfl
  · intro front middle early
    have reached := (intact_of_run intact early).1
    have served := run_served intact early
    rw [waiting] at served
    have whole : registrations.map Registration.handle ++ enqueued front =
        (first :: dispatched front) ++ lineOf middle.sched.ready := by
      rw [handles, List.cons_append, List.cons_append, served]
    refine ⟨whole, ⟨_, whole.symm⟩, ?_⟩
    intro back after late
    refine ⟨?_, ?_⟩
    · intro taken member
      rcases run_member late member with ⟨between, until_then, step, _⟩
      exact step.dispatch (intact_of_run reached until_then).1
    · intro place task stands
      have later := run_served reached late
      refine ⟨later.moves_up stands, ?_⟩
      intro enough
      exact ⟨later.leaves_at stands enough, later.not_before reached.line_nodup stands enough⟩

/-! ## A queue that is never empty -/

def YieldingStep (idler : TaskHandle) (kernel : Kernel Party Context Machine)
    (label : KernelLabel Party Machine) (after : Kernel Party Context Machine) : Prop :=
  KernelStep cpu build kernel label after ∧
    OnlyYields idler (rosterOf kernel.sched).current label.event

variable {cpu build} {idler : TaskHandle} {kernel after : Kernel Party Context Machine}

theorem ViewStep.not_deadlocked {view next : View Party} {event : Event Party Machine}
    {result : Except SchedError Reply} (step : ViewStep build view event result next)
    (yields : OnlyYields idler view.roster.current event)
    (member : idler ∈ view.roster.runnable) : result ≠ .error .deadlock := by
  have sent : ∀ {outcome : Except Ipc.IpcError Ipc.SendOutcome},
      bridged .sent outcome ≠ .error .deadlock := by
    rintro (error | value) same
    · cases same
    · cases same
  have received : ∀ {outcome : Except Ipc.IpcError Ipc.RecvOutcome},
      bridged .received outcome ≠ .error .deadlock := by
    rintro (error | value) same
    · cases same
    · cases same
  cases step with
  | deadlocked rest receives alone =>
      intro _
      rw [Roster.runnable, alone, List.mem_singleton] at member
      cases yields member.symm _ rfl
  | sent rest sends quiet => exact sent
  | received rest receives done => exact received
  | collected suspended receives done => exact received
  | yielded rest => simp
  | delivered rest resolves sends wakes => simp
  | blocked rest resolves receives others => simp
  | backFromYield suspended => simp
  | backFromSend suspended => simp
  | pendingAfterResume suspended receives => simp
  | elsewhere rest => simp

theorem yielding_run {trace : KernelTrace Party Context Machine} (intact : Intact kernel)
    (member : idler ∈ (rosterOf kernel.sched).runnable)
    (run : Run (YieldingStep cpu build idler) kernel trace after) :
    Intact after ∧ idler ∈ (rosterOf after.sched).runnable := by
  apply @run_invariant _ _ _ _ _ _
    (fun kernel => Intact kernel ∧ idler ∈ (rosterOf kernel.sched).runnable) ⟨intact, member⟩ _ run
  rintro before label later ⟨intact, member⟩ ⟨step, yields⟩
  rcases step.view_step intact with ⟨reached, moved⟩
  exact ⟨reached, moved.idler_runnable yields member⟩

variable (cpu build)

/-- The yielding task is current or queued in every state, so the ready queue is not
empty when another task blocks: no call of the run comes back with a deadlock, and none
that another task could make next would. -/
theorem no_deadlock_with_idler
    (registrable : Registrable (registrations.map Registration.handle))
    (registered : idler ∈ registrations.map Registration.handle) :
    ∃ booted, start cpu registrations (powerOn cpu world machine) = .ok () booted ∧
      ∀ trace after, Run (YieldingStep cpu build idler) booted trace after →
        (∀ taken ∈ trace, taken.label.result ≠ .error .deadlock) ∧
        (after.sched.current = some idler ∨ idler ∈ lineOf after.sched.ready) ∧
        ∀ party epCap final, AtRest after → after.sched.current ≠ some idler →
          ipcRecvAndYield cpu build party epCap after ≠ .err .deadlock final := by
  rcases boot_run cpu world machine (anyone_of_registered registered) registrable with
    ⟨booted, first, rest, ran, handles, intact, shown⟩
  have runnable : idler ∈ (rosterOf booted.sched).runnable := by
    rw [show rosterOf booted.sched = _ from congrArg View.roster shown]
    rw [handles] at registered
    exact registered
  refine ⟨booted, ran, ?_⟩
  intro trace after run
  rcases yielding_run intact runnable run with ⟨reached, member⟩
  refine ⟨?_, (reached.runnable_iff idler).mpr member, ?_⟩
  · intro taken isTaken
    rcases run_member run isTaken with ⟨front, early, ⟨step, yields⟩, _⟩
    rcases yielding_run intact runnable early with ⟨intactThen, memberThen⟩
    exact (step.view_step intactThen).2.not_deadlocked yields memberThen
  · intro party epCap final atRest other stuck
    have step : KernelStep cpu build after
        ⟨.call (.ipcRecvAndYield party epCap), .error .deadlock⟩ final := ⟨atRest, stuck⟩
    apply (step.view_step reached).2.not_deadlocked _ member rfl
    intro isIdler
    exact absurd ((reached.current_iff idler).mpr isIdler.symm) other

end Boot

/-! ## Three tasks -/

/-- The first task blocks, the second sends to it and yields, the third only yields. -/
def relay : List (Cue Index) := [recvBy 0, sendBy 1 7, yieldBy]

theorem no_deadlock_with_idler_relay :
    (playedTo plainCpu ⟨true⟩ relay trio).sched.current = some ⟨⟨0, 0⟩⟩ ∧
      (∀ taken ∈ played plainCpu ⟨true⟩ relay trio, taken.label.result ≠ .error .deadlock) ∧
      ⟨⟨2, 0⟩⟩ ∈ lineOf (playedTo plainCpu ⟨true⟩ relay trio).sched.ready := by
  rcases @no_deadlock_with_idler _ _ _ _ plainCpu ⟨true⟩ sharedWorld (0, 0) _ ⟨⟨2, 0⟩⟩
    trio_registrable (by decide) with ⟨reached, ran, law⟩
  have booted : trio = reached := booted_with ran
  rw [← booted] at law
  have run : Run (IdledStep plainCpu ⟨true⟩ id ⟨⟨2, 0⟩⟩) trio
      (played plainCpu ⟨true⟩ relay trio) (playedTo plainCpu ⟨true⟩ relay trio) :=
    idled_played_run (by decide +kernel) (by decide +kernel)
  have yielding : Run (YieldingStep plainCpu ⟨true⟩ ⟨⟨2, 0⟩⟩) trio
      (played plainCpu ⟨true⟩ relay trio) (playedTo plainCpu ⟨true⟩ relay trio) :=
    run_weaken (fun _ _ _ step => ⟨step.1.1, step.2⟩) run
  rcases law _ _ yielding with ⟨quiet, place, _⟩
  have current : (playedTo plainCpu ⟨true⟩ relay trio).sched.current = some ⟨⟨0, 0⟩⟩ := by
    decide +kernel
  refine ⟨current, quiet, place.resolve_left ?_⟩
  rw [current]
  decide

theorem fifo_dispatch_relay :
    dispatched (played plainCpu ⟨true⟩ relay trio) = [⟨⟨1, 0⟩⟩, ⟨⟨2, 0⟩⟩, ⟨⟨0, 0⟩⟩] ∧
      enqueued (played plainCpu ⟨true⟩ relay trio) = [⟨⟨0, 0⟩⟩, ⟨⟨1, 0⟩⟩, ⟨⟨2, 0⟩⟩] ∧
      [taskIn 0, taskIn 1, taskIn 2].map Registration.handle ++
          enqueued (played plainCpu ⟨true⟩ relay trio) =
        (⟨⟨0, 0⟩⟩ :: dispatched (played plainCpu ⟨true⟩ relay trio)) ++
          lineOf (playedTo plainCpu ⟨true⟩ relay trio).sched.ready := by
  rcases @fifo_dispatch _ _ _ _ plainCpu ⟨true⟩ sharedWorld (0, 0) _ (by simp)
    trio_registrable with ⟨reached, first, ran, isFirst, law⟩
  have booted : trio = reached := booted_with ran
  rw [← booted] at law isFirst
  have run : Run (BridgeStep plainCpu ⟨true⟩ id) trio
      (played plainCpu ⟨true⟩ relay trio) (playedTo plainCpu ⟨true⟩ relay trio) :=
    played_run (by decide +kernel)
  have starts : trio.sched.current = some ⟨⟨0, 0⟩⟩ := by decide +kernel
  cases Option.some.inj (isFirst.symm.trans starts)
  refine ⟨by decide +kernel, by decide +kernel, ?_⟩
  exact (law _ _ (run_weaken (fun _ _ _ step => step.1) run)).1

end Tyrne.Sched
