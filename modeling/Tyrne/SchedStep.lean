import Tyrne.Roster

/-!
# The scheduler keeps a roster

Each pre-switch half of a bridge function, run on a scheduler that shows an orderly
roster, comes to its end and shows the roster changed in the way the abstract
operation says. None of the panics and assertions of these functions is met on the
way.
-/

namespace Tyrne.Sched

open Tyrne.Lib.Effect
open Tyrne.Lib.LinkedList (length_le_of_nodup)
open Tyrne.Cap

set_option autoImplicit false

variable {Context Machine : Type}

/-! ## Reading a scheduler -/

def statesOf (sched : Scheduler Context) (idx : Index) : TaskState :=
  sched.taskStates[idx]?.getD .idle

def handlesOf (sched : Scheduler Context) (idx : Index) : Option TaskHandle :=
  sched.taskHandles[idx]?.getD none

/-- The roster of a scheduler that has a current task. -/
def rosterOf (sched : Scheduler Context) : Roster where
  current := sched.current.getD ⟨⟨0, 0⟩⟩
  ready := lineOf sched.ready
  states := statesOf sched
  handles := handlesOf sched

/-- What can be read off a scheduler, contexts apart. -/
structure Reads (sched : Scheduler Context) (current : Option TaskHandle)
    (line : List TaskHandle) (states : Index → TaskState) (handles : Index → Option TaskHandle) :
    Prop where
  current : sched.current = current
  ready : Holds sched.ready line
  states : statesOf sched = states
  handles : handlesOf sched = handles

def Shows (sched : Scheduler Context) (roster : Roster) : Prop :=
  Reads sched (some roster.current) roster.ready roster.states roster.handles

theorem roster_of_shows {sched : Scheduler Context} {roster : Roster}
    (shows : Shows sched roster) : rosterOf sched = roster := by
  rw [rosterOf, shows.current, line_of_holds shows.ready, shows.states, shows.handles]
  rfl

/-! ## Single accesses -/

section Accesses

variable {sched : Scheduler Context} {current : Option TaskHandle} {line : List TaskHandle}
  {states : Index → TaskState} {handles : Index → Option TaskHandle}

theorem Reads.set_current (reads : Reads sched current line states handles)
    (fresh : Option TaskHandle) :
    ∃ after, setCurrent fresh sched = .ok () after ∧ Reads after fresh line states handles :=
  ⟨{ sched with current := fresh }, rfl, rfl, reads.ready, reads.states, reads.handles⟩

theorem Reads.task_state_at (reads : Reads sched current line states handles) {idx : Index}
    (inRange : idx < taskArenaCapacity) : taskStateAt idx sched = .ok (states idx) sched := by
  rw [← reads.states]
  simp [taskStateAt, statesOf, inRange]

theorem Reads.task_handle_at (reads : Reads sched current line states handles) {idx : Index}
    (inRange : idx < taskArenaCapacity) : taskHandleAt idx sched = .ok (handles idx) sched := by
  rw [← reads.handles]
  simp [taskHandleAt, handlesOf, inRange]

theorem set_task_state_run {idx : Index} (inRange : idx < taskArenaCapacity) (state : TaskState) :
    setTaskState idx state sched =
      .ok () { sched with taskStates := sched.taskStates.setIfInBounds idx state } := by
  simp [setTaskState, taskStateAt, inRange]

theorem Reads.set_task_state (reads : Reads sched current line states handles) {idx : Index}
    (inRange : idx < taskArenaCapacity) (state : TaskState) :
    ∃ after, setTaskState idx state sched = .ok () after ∧
      Reads after current line (Function.update states idx state) handles := by
  refine ⟨{ sched with taskStates := sched.taskStates.setIfInBounds idx state }, ?_,
    reads.current, reads.ready, ?_, reads.handles⟩
  · exact set_task_state_run inRange state
  · funext other
    rw [← reads.states]
    by_cases same : other = idx
    · subst same
      simp [statesOf, inRange]
    · simp [statesOf, same, Vector.getElem?_setIfInBounds_ne (Ne.symm same)]

theorem Reads.set_task_handle (reads : Reads sched current line states handles) {idx : Index}
    (inRange : idx < taskArenaCapacity) (handle : TaskHandle) :
    ∃ after, setTaskHandle idx handle sched = .ok () after ∧
      Reads after current line states (Function.update handles idx (some handle)) := by
  refine ⟨{ sched with taskHandles := sched.taskHandles.setIfInBounds idx (some handle) }, ?_,
    reads.current, reads.ready, reads.states, ?_⟩
  · simp [setTaskHandle, reads.task_handle_at inRange]
  · funext other
    rw [← reads.handles]
    by_cases same : other = idx
    · subst same
      simp [handlesOf, inRange]
    · simp [handlesOf, same, Vector.getElem?_setIfInBounds_ne (Ne.symm same)]

theorem Reads.join (reads : Reads sched current line states handles)
    (room : line.length < taskArenaCapacity) (handle : TaskHandle) :
    ∃ after, onReady (enqueue handle) sched = .ok () after ∧
      Reads after current (line ++ [handle]) states handles := by
  rcases enqueue_run (by decide) reads.ready room handle with ⟨queue, ran, holds⟩
  exact ⟨_, zoom_ok ran, reads.current, holds, reads.states, reads.handles⟩

theorem Reads.join_or_panic (reads : Reads sched current line states handles)
    (room : line.length < taskArenaCapacity) (panic : SchedFault) (handle : TaskHandle) :
    ∃ after, enqueueOrPanic panic handle sched = .ok () after ∧
      Reads after current (line ++ [handle]) states handles := by
  rcases reads.join room handle with ⟨after, ran, joined⟩
  exact ⟨after, by simp [enqueueOrPanic, orAbort, ran], joined⟩

theorem Reads.take_next {next : TaskHandle} {rest : List TaskHandle} {Error : Type}
    (reads : Reads sched current (next :: rest) states handles) :
    ∃ after, (onReady dequeue sched : Outcome SchedFault Error _ _) = .ok (some next) after ∧
      Reads after current rest states handles := by
  rcases @dequeue_run _ _ Error (by decide) _ _ reads.ready with ⟨queue, ran, holds⟩
  exact ⟨_, zoom_ok ran, reads.current, holds, reads.states, reads.handles⟩

end Accesses

/-! ## The pre-switch halves -/

def Roster.switchOf (roster : Roster) : Option (Index × Index) :=
  match roster.ready with
  | [] => none
  | next :: _ => some (slotOf roster.current, slotOf next)

section Halves

variable {sched : Scheduler Context} {roster : Roster}

theorem mark_ready {current : Option TaskHandle} {line : List TaskHandle}
    {states : Index → TaskState} (reads : Reads sched current line states roster.handles)
    {handle : TaskHandle} (inRange : slotOf handle < taskArenaCapacity)
    (already : states (slotOf handle) = .ready) :
    ∃ after, setTaskState (slotOf handle) .ready sched = .ok () after ∧
      Reads after current line states roster.handles := by
  rcases reads.set_task_state inRange .ready with ⟨after, ran, marked⟩
  rw [← already, Function.update_eq_self] at marked
  exact ⟨after, ran, marked⟩

variable (shows : Shows sched roster) (orderly : Orderly roster)
include shows orderly

theorem yield_prelude_run :
    ∃ after, yieldPrelude sched = .ok roster.switchOf after ∧ Shows after roster.rotate := by
  have own : roster.current ∈ roster.runnable := List.mem_cons_self
  have ownReady := (orderly.enrolled _ own).2
  rcases mark_ready shows (orderly.slot_in_range own) ownReady with ⟨marked, markRan, reads⟩
  rcases reads.join_or_panic orderly.room .queueFullOnYield roster.current with
    ⟨joined, joinRan, inLine⟩
  simp only [slotOf] at markRan
  cases line : roster.ready with
  | nil =>
      rw [line] at inLine
      rcases @Reads.take_next _ _ _ _ _ _ _ SchedError inLine with ⟨after, takeRan, alone⟩
      refine ⟨after, ?_, ?_⟩
      · simp [yieldPrelude, shows.current, markRan, joinRan, takeRan, Roster.switchOf, line]
      · simp only [Shows, Roster.rotate, line]
        exact alone
  | cons next rest =>
      rw [line] at inLine
      have member := next_runnable line
      have nextReady := (orderly.enrolled _ member).2
      have other : next ≠ roster.current := by
        intro same
        exact orderly.next_apart line (congrArg slotOf same.symm)
      rcases @Reads.take_next _ _ _ _ _ _ _ SchedError inLine with ⟨taken, takeRan, moved⟩
      rcases mark_ready moved (orderly.slot_in_range member) nextReady with
        ⟨resumed, resumeRan, ready⟩
      rcases ready.set_current (some next) with ⟨after, currentRan, final⟩
      simp only [slotOf] at resumeRan
      refine ⟨after, ?_, ?_⟩
      · simp [yieldPrelude, shows.current, markRan, joinRan, takeRan, other, resumeRan,
          currentRan, Roster.switchOf, line, slotOf]
      · simp only [Shows, Roster.rotate, line]
        exact final

theorem unblock_among_run (ep : EndpointHandle) (indices : List Index)
    (inRange : ∀ idx ∈ indices, idx < taskArenaCapacity) :
    match indices.find? fun idx => roster.states idx = .blocked ep with
    | none => unblockAmong ep indices sched = .ok () sched
    | some idx => ∃ handle after, roster.handles idx = some handle ∧
        unblockAmong ep indices sched = .ok () after ∧ Shows after (roster.rejoin idx handle) := by
  induction indices with
  | nil => rfl
  | cons idx rest ih =>
      have bound := inRange idx List.mem_cons_self
      have later := ih fun other member => inRange other (List.mem_cons_of_mem _ member)
      have state := shows.task_state_at bound
      by_cases waits : roster.states idx = .blocked ep
      · rcases orderly.known (by rw [waits]; simp) with ⟨handle, known⟩
        rcases shows.set_task_state bound .ready with ⟨marked, markRan, reads⟩
        rcases reads.join_or_panic orderly.room .queueFullOnUnblock handle with
          ⟨after, joinRan, final⟩
        have stored := shows.task_handle_at bound
        rw [known] at stored
        rw [waits] at state
        simp only [List.find?_cons, waits, decide_true]
        refine ⟨handle, after, known, ?_, final⟩
        simp [unblockAmong, state, stored, markRan, joinRan]
      · have skipped : unblockAmong ep (idx :: rest) sched = unblockAmong ep rest sched := by
          rw [unblockAmong, bind_run, state, and_then_ok]
          cases found : roster.states idx with
          | idle => rfl
          | ready => rfl
          | blocked on =>
              have different : on ≠ ep := by
                intro same
                exact waits (by rw [found, same])
              simp [different]
        simp only [List.find?_cons, waits, decide_false, skipped]
        exact later

theorem unblock_receiver_run (ep : EndpointHandle) :
    ∃ after, unblockReceiverOn ep sched = .ok () after ∧ Shows after (roster.wake ep) := by
  have ran := unblock_among_run shows orderly ep (List.range taskArenaCapacity)
    fun idx member => List.mem_range.mp member
  have search : (List.range taskArenaCapacity).find? (fun idx => roster.states idx = .blocked ep) =
      roster.waiterOn ep := rfl
  rw [search] at ran
  cases found : roster.waiterOn ep with
  | none =>
      rw [found] at ran
      rw [wake_none found]
      exact ⟨sched, ran, shows⟩
  | some idx =>
      rw [found] at ran
      rcases ran with ⟨handle, after, known, ran, final⟩
      rcases orderly.wake_some found with ⟨other, otherKnown, woken⟩
      cases known.symm.trans otherKnown
      rw [woken]
      exact ⟨after, ran, final⟩

/-- With nobody in line every write is taken back: the scheduler is the one before the call. -/
theorem block_prelude_alone (build : Build) (ep : EndpointHandle) (alone : roster.ready = []) :
    blockPrelude build ep sched = .err .deadlock sched := by
  have own : roster.current ∈ roster.runnable := List.mem_cons_self
  have inRange := orderly.slot_in_range own
  have state := shows.task_state_at inRange
  rw [(orderly.enrolled _ own).2] at state
  have stored : sched.taskStates[slotOf roster.current] = .ready := by
    simpa [taskStateAt, inRange] using state
  have restored : sched.taskStates.setIfInBounds (slotOf roster.current) .ready =
      sched.taskStates := by
    apply Vector.ext
    intro idx bound
    rw [Vector.getElem_setIfInBounds bound]
    split
    · next same =>
        subst same
        exact stored.symm
    · rfl
  have empty : Holds sched.ready [] := alone ▸ shows.ready
  have taken := @dequeue_empty _ _ SchedError empty
  have kept : { sched with current := some roster.current } = sched := by rw [← shows.current]
  simp only [slotOf] at state inRange restored
  simp [blockPrelude, shows.current, state, set_task_state_run inRange, setCurrent, onReady, zoom,
    taken, restored, kept]

theorem block_prelude_run (build : Build) (ep : EndpointHandle) {next : TaskHandle}
    {rest : List TaskHandle} (line : roster.ready = next :: rest) :
    ∃ after, blockPrelude build ep sched = .ok (slotOf roster.current, slotOf next) after ∧
      Shows after (roster.block ep) := by
  have own : roster.current ∈ roster.runnable := List.mem_cons_self
  have inRange := orderly.slot_in_range own
  have member := next_runnable line
  have apart := (orderly.next_apart line).symm
  have state := shows.task_state_at inRange
  rw [(orderly.enrolled _ own).2] at state
  rcases shows.set_task_state inRange (.blocked ep) with ⟨blocked, blockRan, reads⟩
  rcases reads.set_current none with ⟨left, leaveRan, absent⟩
  rw [line] at absent
  rcases @Reads.take_next _ _ _ _ _ _ _ SchedError absent with ⟨taken, takeRan, moved⟩
  have nextReady : Function.update roster.states (slotOf roster.current) (.blocked ep)
      (slotOf next) = .ready := by
    rw [Function.update_of_ne apart]
    exact (orderly.enrolled _ member).2
  rcases mark_ready moved (orderly.slot_in_range member) nextReady with
    ⟨resumed, resumeRan, ready⟩
  rcases ready.set_current (some next) with ⟨after, currentRan, final⟩
  simp only [slotOf] at state blockRan resumeRan
  refine ⟨after, ?_, ?_⟩
  · simp [blockPrelude, shows.current, state, blockRan, leaveRan, takeRan, resumeRan,
      currentRan, slotOf]
  · simp only [Shows, Roster.block, line]
    exact final

end Halves

/-! ## Registration -/

def startingRoster (first : TaskHandle) (rest : List TaskHandle) : Roster where
  current := first
  ready := rest
  states := fun idx => if idx ∈ (first :: rest).map slotOf then .ready else .idle
  handles := fun idx => (first :: rest).find? fun handle => slotOf handle = idx

/-- Handles that can be registered together. -/
structure Registrable (handles : List TaskHandle) : Prop where
  distinct : (handles.map slotOf).Nodup
  inRange : ∀ handle ∈ handles, slotOf handle < taskArenaCapacity

section Registration

theorem Registrable.length_le {handles : List TaskHandle} (registrable : Registrable handles) :
    handles.length ≤ taskArenaCapacity := by
  have bounded := length_le_of_nodup registrable.distinct (by
    intro idx member
    rcases List.mem_map.mp member with ⟨handle, known, rfl⟩
    exact registrable.inRange handle known)
  simpa using bounded

theorem Registrable.tail {first : TaskHandle} {rest : List TaskHandle}
    (registrable : Registrable (first :: rest)) : Registrable rest where
  distinct := (List.nodup_cons.mp registrable.distinct).2
  inRange := fun handle member => registrable.inRange handle (List.mem_cons_of_mem _ member)

theorem Registrable.find_slot {handles : List TaskHandle} (registrable : Registrable handles)
    {handle : TaskHandle} (member : handle ∈ handles) :
    (handles.find? fun other => slotOf other = slotOf handle) = some handle := by
  induction handles with
  | nil => cases member
  | cons first rest ih =>
      rcases List.mem_cons.mp member with same | later
      · subst same
        simp
      · have apart : slotOf first ≠ slotOf handle := by
          intro same
          apply (List.nodup_cons.mp registrable.distinct).1
          rw [same]
          exact List.mem_map_of_mem later
        rw [List.find?_cons_of_neg (by simpa using apart)]
        exact ih registrable.tail later

theorem starting_orderly {first : TaskHandle} {rest : List TaskHandle}
    (registrable : Registrable (first :: rest)) : Orderly (startingRoster first rest) where
  distinct := registrable.distinct
  enrolled := by
    intro handle member
    refine ⟨registrable.find_slot member, ?_⟩
    exact if_pos (List.mem_map_of_mem member)
  attended := by
    intro idx isReady
    by_cases known : idx ∈ (first :: rest).map slotOf
    · rcases List.mem_map.mp known with ⟨handle, member, slot⟩
      exact ⟨handle, member, slot⟩
    · simp only [startingRoster, if_neg known] at isReady
      cases isReady
  vacant := by
    intro idx
    by_cases known : idx ∈ (first :: rest).map slotOf
    · rcases List.mem_map.mp known with ⟨handle, member, rfl⟩
      have found := registrable.find_slot member
      simp only [startingRoster, if_pos known, found]
      simp
    · have nobody : (first :: rest).find? (fun handle => slotOf handle = idx) = none := by
        apply List.find?_eq_none.mpr
        intro handle member same
        apply known
        have slot : slotOf handle = idx := by simpa using same
        rw [← slot]
        exact List.mem_map_of_mem member
      simp only [startingRoster, if_neg known, nobody]
  home := by
    intro idx handle found
    have slot : slotOf handle = idx := by
      have holds := List.find?_some found
      simpa using holds
    have member := List.mem_of_find?_eq_some found
    rw [← slot]
    exact ⟨rfl, registrable.inRange handle member⟩

variable {sched : Scheduler Context} {line : List TaskHandle} {states : Index → TaskState}
  {handles : Index → Option TaskHandle} (cpu : Cpu Context Machine)

theorem add_task_run {current : Option TaskHandle}
    (reads : Reads sched current line states handles)
    (room : line.length < taskArenaCapacity) {handle : TaskHandle}
    (inRange : slotOf handle < taskArenaCapacity) (entry stackTop : UInt64) :
    ∃ after, addTask cpu handle entry stackTop sched = .ok () after ∧
      Reads after current (line ++ [handle]) (Function.update states (slotOf handle) .ready)
        (Function.update handles (slotOf handle) (some handle)) := by
  simp only [slotOf] at inRange
  have context : ∃ context, sched.contexts[handle.slot.index]? = some context :=
    ⟨_, Vector.getElem?_eq_getElem inRange⟩
  rcases context with ⟨context, found⟩
  let contexts := sched.contexts.setIfInBounds handle.slot.index
    (cpu.initContext context entry stackTop)
  have prepared : Reads { sched with contexts := contexts } current line states handles :=
    ⟨reads.current, reads.ready, reads.states, reads.handles⟩
  rcases prepared.join room handle with ⟨joined, joinRan, inLine⟩
  rcases inLine.set_task_state inRange .ready with ⟨marked, markRan, ready⟩
  rcases ready.set_task_handle inRange handle with ⟨after, handleRan, final⟩
  refine ⟨after, ?_, final⟩
  simp [addTask, found, contexts, joinRan, markRan, handleRan]

theorem register_all_run (registrations : List Registration)
    (reads : Reads sched none line states handles)
    (registrable : Registrable (registrations.map Registration.handle))
    (room : line.length + registrations.length ≤ taskArenaCapacity) :
    ∃ after, registerAll cpu registrations sched = .ok () after ∧
      Reads after none (line ++ registrations.map Registration.handle)
        (fun idx => if idx ∈ (registrations.map Registration.handle).map slotOf then .ready
          else states idx)
        (fun idx => ((registrations.map Registration.handle).find?
          fun handle => slotOf handle = idx).or (handles idx)) := by
  induction registrations generalizing sched line states handles with
  | nil => exact ⟨sched, rfl, by simpa using reads⟩
  | cons first rest ih =>
      simp only [List.length_cons] at room
      have inRange := registrable.inRange first.handle List.mem_cons_self
      rcases add_task_run cpu reads (by omega) inRange first.entry first.stackTop with
        ⟨added, addRan, addReads⟩
      rcases ih addReads registrable.tail (by simp; omega) with ⟨after, restRan, final⟩
      refine ⟨after, by simp [registerAll, addRan, restRan], ?_⟩
      have sameLine : line ++ [first.handle] ++ rest.map Registration.handle =
          line ++ (first :: rest).map Registration.handle := by simp
      have fresh := (List.nodup_cons.mp registrable.distinct).1
      rw [sameLine] at final
      refine ⟨final.current, final.ready, ?_, ?_⟩
      · rw [final.states]
        funext idx
        by_cases same : idx = slotOf first.handle
        · subst same
          simp
        · simp [same]
      · rw [final.handles]
        funext idx
        by_cases same : idx = slotOf first.handle
        · subst same
          have nobody : (rest.map Registration.handle).find?
              (fun handle => slotOf handle = slotOf first.handle) = none := by
            apply List.find?_eq_none.mpr
            intro handle member clash
            apply fresh
            have slot : slotOf handle = slotOf first.handle := by simpa using clash
            rw [← slot]
            exact List.mem_map_of_mem member
          simp [nobody]
        · simp [same, Ne.symm same]

theorem reads_new : Reads (Scheduler.new cpu) none [] (fun _ => .idle) (fun _ => none) := by
  refine ⟨rfl, holds_new, ?_, ?_⟩
  · funext idx
    by_cases inRange : idx < taskArenaCapacity
    · simp [statesOf, Scheduler.new, inRange]
    · simp [statesOf, Vector.getElem?_eq_none (Nat.le_of_not_lt inRange)]
  · funext idx
    by_cases inRange : idx < taskArenaCapacity
    · simp [handlesOf, Scheduler.new, inRange]
    · simp [handlesOf, Vector.getElem?_eq_none (Nat.le_of_not_lt inRange)]

omit cpu in
theorem start_prelude_run {first : TaskHandle} {rest : List TaskHandle}
    (registrable : Registrable (first :: rest))
    (reads : Reads sched none (first :: rest) (startingRoster first rest).states
      (startingRoster first rest).handles) :
    ∃ after, startPrelude sched = .ok (slotOf first) after ∧
      Shows after (startingRoster first rest) := by
  have orderly := starting_orderly registrable
  have member : first ∈ (startingRoster first rest).runnable := List.mem_cons_self
  rcases @Reads.take_next _ _ _ _ _ _ _ SchedError reads with ⟨taken, takeRan, moved⟩
  rcases mark_ready moved (orderly.slot_in_range member) (orderly.enrolled _ member).2 with
    ⟨marked, markRan, ready⟩
  rcases ready.set_current (some first) with ⟨after, currentRan, final⟩
  simp only [slotOf] at markRan
  refine ⟨after, ?_, final⟩
  simp [startPrelude, takeRan, markRan, currentRan, slotOf]

end Registration

end Tyrne.Sched
