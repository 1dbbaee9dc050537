import Tyrne.Waiters

/-!
# A woken receiver and its message

A delivered send completes the endpoint and wakes the receiver, but the receiver
collects the message only when it goes on. In between the completed message stands in
the endpoint without the receiver's name. As long as no other task receives from the
endpoint while a woken receiver of it is still suspended, the message is there when
the receiver goes on, and it is the one of the send that woke it.
-/

namespace Tyrne.Sched

open Tyrne.Lib.Effect
open Tyrne.Lib.Runs
open Tyrne.Cap
open Tyrne.CapTable (CapabilityTable isFull)
open Tyrne.ObjArena
open Tyrne.Ipc
open Tyrne.System (World Fresh Parcel Busy capabilityAt endpointAt endpoint_at_named
  takes_capability installs_capability)

set_option autoImplicit false

variable {Party Context Machine : Type}

/-! ## Who was woken by what -/

/-- What each task was last woken with, after one more event: a send by which a task
became ready woke it with its message and the capability it transferred. -/
def wokenAfter (woken : Index → Option Parcel) (view : View Party) (event : Event Party Machine)
    (next : View Party) (idx : Index) : Option Parcel :=
  match event with
  | .call (.ipcSendAndYield party _ msg transfer) =>
      if view.roster.states idx ≠ .ready ∧ next.roster.states idx = .ready then
        some (msg, transfer.bind (capabilityAt (view.world.tables party)))
      else woken idx
  | _ => woken idx

/-- The parcel of the last send that woke the task of slot `idx`. -/
def wokenWith (trace : KernelTrace Party Context Machine) : Index → Option Parcel :=
  trace.foldl (fun woken taken =>
    wokenAfter woken (viewOf taken.before) taken.label.event (viewOf taken.after)) fun _ => none

theorem woken_with_snoc (trace : KernelTrace Party Context Machine)
    (taken : Transition (Kernel Party Context Machine) (KernelLabel Party Machine)) :
    wokenWith (trace ++ [taken]) = wokenAfter (wokenWith trace) (viewOf taken.before)
      taken.label.event (viewOf taken.after) := by
  rw [wokenWith, List.foldl_append]
  rfl

/-! ## Single steps -/

/-- A receiver of `ep` that has been woken and has not gone on yet. -/
def Awaits (view : View Party) (idx : Index) (ep : EndpointHandle) : Prop :=
  view.roster.states idx = .ready ∧ ∃ guard party epCap,
    view.frames idx = .inRecv guard party epCap ∧ Names (view.world.tables party) epCap .recv ep

/-- A task receives from an endpoint while a woken receiver of it is still suspended,
and nothing keeps the receive from taking the message. -/
def Steals (view : View Party) (event : Event Party Machine) : Prop :=
  ∃ party epCap ep idx, event = .call (.ipcRecvAndYield party epCap) ∧
    Names (view.world.tables party) epCap .recv ep ∧ Live view.world.arena ep.slot ∧
    ¬ ((endpointState view.world ep).parked.isSome = true ∧
      isFull (view.world.tables party) = true) ∧
    Awaits view idx ep

/-- Suspended receivers and what the endpoints hold for them; `woken` says by what each
task was last woken. -/
structure Reserved (owner : Index → Party) (woken : Index → Option Parcel)
    (view : View Party) : Prop where
  blocked : ∀ idx ep, view.roster.states idx = .blocked ep → ∃ guard epCap,
    view.frames idx = .inRecv guard (owner idx) epCap ∧
      Names (view.world.tables (owner idx)) epCap .recv ep
  suspended : ∀ idx guard party epCap, view.frames idx = .inRecv guard party epCap →
    party = owner idx ∧ ∃ ep, Names (view.world.tables party) epCap .recv ep
  reserved : ∀ idx ep, Awaits view idx ep → ∃ msg cap,
    endpointState view.world ep = .recvComplete msg cap ∧ woken idx = some (msg, cap)
  alone : ∀ left right ep, Awaits view left ep → Awaits view right ep → left = right

section Steps

variable {owner : Index → Party} {woken : Index → Option Parcel} {view next : View Party}

/-- The task in control does not wait, and every other suspended receiver finds what it
left: its frame, its table, and the message reserved for it. -/
structure Undisturbed (owner : Index → Party) (view next : View Party) : Prop where
  frames : ∀ idx, idx ≠ slotOf view.roster.current → next.frames idx = view.frames idx
  outside : ∀ guard party epCap,
    next.frames (slotOf view.roster.current) ≠ .inRecv guard party epCap
  tables : ∀ idx, idx ≠ slotOf view.roster.current →
    next.world.tables (owner idx) = view.world.tables (owner idx)
  messages : ∀ idx ep, idx ≠ slotOf view.roster.current → Awaits view idx ep →
    endpointState next.world ep = endpointState view.world ep

theorem View.not_receiving (rest : view.frame = .outside) (guard : IrqState) (party : Party)
    (epCap : CapHandle) :
    view.frames (slotOf view.roster.current) ≠ .inRecv guard party epCap := by
  intro frame
  cases rest.symm.trans frame

theorem Undisturbed.awaits (undisturbed : Undisturbed owner view next)
    (reserved : Reserved owner woken view) {idx : Index} {ep : EndpointHandle}
    (different : idx ≠ slotOf view.roster.current)
    (isReady : next.roster.states idx = .ready → view.roster.states idx = .ready)
    (awaits : Awaits next idx ep) : Awaits view idx ep := by
  rcases awaits with ⟨ready, guard, party, epCap, frame, names⟩
  rw [undisturbed.frames idx different] at frame
  have own := (reserved.suspended idx guard party epCap frame).1
  rw [own, undisturbed.tables idx different, ← own] at names
  exact ⟨isReady ready, guard, party, epCap, frame, names⟩

theorem Undisturbed.not_current (undisturbed : Undisturbed owner view next) {idx : Index}
    {guard : IrqState} {party : Party} {epCap : CapHandle}
    (frame : next.frames idx = .inRecv guard party epCap) :
    idx ≠ slotOf view.roster.current := by
  intro same
  rw [same] at frame
  exact undisturbed.outside guard party epCap frame

theorem Undisturbed.suspended (undisturbed : Undisturbed owner view next)
    (reserved : Reserved owner woken view) {idx : Index} {guard : IrqState} {party : Party}
    {epCap : CapHandle} (frame : next.frames idx = .inRecv guard party epCap) :
    party = owner idx ∧ ∃ ep, Names (next.world.tables party) epCap .recv ep := by
  have different := undisturbed.not_current frame
  rw [undisturbed.frames idx different] at frame
  rcases reserved.suspended idx guard party epCap frame with ⟨own, ep, names⟩
  refine ⟨own, ep, ?_⟩
  rw [own, undisturbed.tables idx different, ← own]
  exact names

theorem Reserved.kept (reserved : Reserved owner woken view)
    (undisturbed : Undisturbed owner view next)
    (states : next.roster.states = view.roster.states)
    (ownReady : view.roster.states (slotOf view.roster.current) = .ready) :
    Reserved owner woken next := by
  have before : ∀ idx ep, Awaits next idx ep →
      idx ≠ slotOf view.roster.current ∧ Awaits view idx ep := by
    intro idx ep awaits
    rcases awaits with ⟨ready, guard, party, epCap, frame, names⟩
    have different := undisturbed.not_current frame
    refine ⟨different, undisturbed.awaits reserved different ?_ ⟨ready, guard, party, epCap,
      frame, names⟩⟩
    rw [states]
    exact id
  refine ⟨?_, fun _ _ _ _ frame => undisturbed.suspended reserved frame, ?_, ?_⟩
  · intro idx ep blocked
    rw [states] at blocked
    have different : idx ≠ slotOf view.roster.current := by
      intro same
      rw [same, ownReady] at blocked
      cases blocked
    rcases reserved.blocked idx ep blocked with ⟨guard, epCap, frame, names⟩
    refine ⟨guard, epCap, ?_, ?_⟩
    · rw [undisturbed.frames idx different]
      exact frame
    · rw [undisturbed.tables idx different]
      exact names
  · intro idx ep awaits
    rcases before idx ep awaits with ⟨different, old⟩
    rw [undisturbed.messages idx ep different old]
    exact reserved.reserved idx ep old
  · intro left right ep first second
    exact reserved.alone left right ep (before left ep first).2 (before right ep second).2

theorem wake_made_ready {roster : Roster} {ep : EndpointHandle} {idx : Index}
    (before : roster.states idx ≠ .ready) (after : (roster.wake ep).states idx = .ready) :
    roster.states idx = .blocked ep := by
  cases waiter : roster.waiterOn ep with
  | none =>
      rw [wake_none waiter] at after
      exact absurd after before
  | some found =>
      cases known : roster.handles found with
      | none =>
          simp only [Roster.wake, waiter, known] at after
          exact absurd after before
      | some handle =>
          simp only [Roster.wake, waiter, known, Roster.rejoin] at after
          by_cases same : idx = found
          · rw [same]
            exact waiter_blocked waiter
          · rw [Function.update_of_ne same] at after
            exact absurd after before

/-- A woken receiver's endpoint is complete, so it is none that is idle or waiting. -/
theorem Reserved.complete (reserved : Reserved owner woken view) {idx : Index}
    {on ep : EndpointHandle} (awaits : Awaits view idx on)
    (other : ∀ msg cap, endpointState view.world ep ≠ .recvComplete msg cap) : on ≠ ep := by
  intro same
  rcases reserved.reserved idx on awaits with ⟨msg, cap, stored, _⟩
  rw [same] at stored
  exact other msg cap stored

section Delivered

variable {world : World Party} {ep : EndpointHandle} {msg : Message}
  {owned : Option Capability}

/-- A delivered send reserves its message for the receiver it wakes. -/
theorem Reserved.delivered (reserved : Reserved owner woken view)
    (orderly : Orderly view.roster) (coupled : Coupled view.roster view.world)
    (waiting : endpointState view.world ep = .recvWaiting)
    (states : endpointState world =
      Function.update (endpointState view.world) ep (.recvComplete msg owned))
    (tables : ∀ idx, idx ≠ slotOf view.roster.current →
      world.tables (owner idx) = view.world.tables (owner idx))
    (rest : view.frame = .outside) (wokenNow : Index → Option Parcel)
    (fresh : ∀ idx, view.roster.states idx ≠ .ready →
      (view.roster.wake ep).states idx = .ready → wokenNow idx = some (msg, owned))
    (old : ∀ idx, view.roster.states idx = .ready → wokenNow idx = woken idx) :
    Reserved owner wokenNow ⟨view.roster.wake ep, world, view.frames⟩ := by
  have notComplete : ∀ msg cap, endpointState view.world ep ≠ .recvComplete msg cap := by
    intro msg cap complete
    rw [waiting] at complete
    cases complete
  have undisturbed : Undisturbed owner view ⟨view.roster.wake ep, world, view.frames⟩ := by
    refine ⟨fun _ _ => rfl, View.not_receiving rest, tables, ?_⟩
    intro idx on _ awaits
    simp only [states]
    exact Function.update_of_ne (reserved.complete awaits notComplete) _ _
  -- A receiver that awaits now either did before or has just been woken.
  have either : ∀ idx on, Awaits ⟨view.roster.wake ep, world, view.frames⟩ idx on →
      Awaits view idx on ∨
        view.roster.states idx = .blocked ep ∧ on = ep ∧ wokenNow idx = some (msg, owned) := by
    intro idx on awaits
    have kept := awaits
    rcases awaits with ⟨ready, guard, party, epCap, frame, names⟩
    have different := undisturbed.not_current frame
    by_cases isReady : view.roster.states idx = .ready
    · exact Or.inl (undisturbed.awaits reserved different (fun _ => isReady) kept)
    · have blocked := wake_made_ready isReady ready
      rcases reserved.blocked idx ep blocked with ⟨saved, cap, savedFrame, savedNames⟩
      cases savedFrame.symm.trans frame
      rw [← tables idx different] at savedNames
      exact Or.inr ⟨blocked, names_unique names savedNames, fresh idx isReady ready⟩
  refine ⟨?_, fun _ _ _ _ frame => undisturbed.suspended reserved frame, ?_, ?_⟩
  · intro idx on blocked
    have before := (coupled.wake_states orderly blocked).1
    rcases reserved.blocked idx on before with ⟨guard, epCap, frame, names⟩
    refine ⟨guard, epCap, frame, ?_⟩
    rw [undisturbed.tables idx (orderly.current_not_blocked before)]
    exact names
  · intro idx on awaits
    rcases either idx on awaits with before | ⟨blocked, rfl, wokenBy⟩
    · rcases reserved.reserved idx on before with ⟨stored, cap, complete, wokenBy⟩
      refine ⟨stored, cap, ?_, ?_⟩
      · simp only [states, Function.update_of_ne (reserved.complete before notComplete)]
        exact complete
      · rw [old idx before.1]
        exact wokenBy
    · exact ⟨msg, owned, (congrFun states on).trans (Function.update_self _ _ _), wokenBy⟩
  · intro left right on first second
    rcases either left on first with leftOld | ⟨leftBlocked, leftHere, _⟩
    · rcases either right on second with rightOld | ⟨_, rightHere, _⟩
      · exact reserved.alone left right on leftOld rightOld
      · exact absurd rightHere (reserved.complete leftOld notComplete)
    · rcases either right on second with rightOld | ⟨rightBlocked, _, _⟩
      · exact absurd leftHere (reserved.complete rightOld notComplete)
      · exact coupled.single left right ep leftBlocked rightBlocked

theorem Reserved.block (reserved : Reserved owner woken view) {epCap : CapHandle}
    (guard : IrqState) (others : view.roster.ready ≠ [])
    (names : Names (view.world.tables (owner (slotOf view.roster.current))) epCap .recv ep)
    (idle : endpointState view.world ep = .idle)
    (states : endpointState world = Function.update (endpointState view.world) ep .recvWaiting)
    (tables : world.tables = view.world.tables) :
    Reserved owner woken ⟨view.roster.block ep, world,
      Function.update view.frames (slotOf view.roster.current)
        (.inRecv guard (owner (slotOf view.roster.current)) epCap)⟩ := by
  have notComplete : ∀ msg cap, endpointState view.world ep ≠ .recvComplete msg cap := by
    intro msg cap complete
    rw [idle] at complete
    cases complete
  have before : ∀ idx on, Awaits ⟨view.roster.block ep, world,
      Function.update view.frames (slotOf view.roster.current)
        (.inRecv guard (owner (slotOf view.roster.current)) epCap)⟩ idx on →
      Awaits view idx on := by
    intro idx on awaits
    rcases awaits with ⟨ready, saved, party, cap, frame, named⟩
    simp only [Roster.states_block _ _ others] at ready
    by_cases same : idx = slotOf view.roster.current
    · rw [same, Function.update_self] at ready
      cases ready
    · simp only [Function.update_of_ne same, tables] at ready frame named
      exact ⟨ready, saved, party, cap, frame, named⟩
  refine ⟨?_, ?_, ?_, ?_⟩
  · intro idx on blocked
    simp only [Roster.states_block _ _ others] at blocked
    simp only [tables]
    by_cases same : idx = slotOf view.roster.current
    · subst same
      rw [Function.update_self] at blocked
      cases blocked
      exact ⟨guard, epCap, Function.update_self _ _ _, names⟩
    · rw [Function.update_of_ne same] at blocked
      rw [Function.update_of_ne same]
      exact reserved.blocked idx on blocked
  · intro idx saved party cap frame
    simp only [tables]
    by_cases same : idx = slotOf view.roster.current
    · subst same
      simp only [Function.update_self] at frame
      cases frame
      exact ⟨rfl, ep, names⟩
    · simp only [Function.update_of_ne same] at frame
      exact reserved.suspended idx saved party cap frame
  · intro idx on awaits
    have old := before idx on awaits
    rcases reserved.reserved idx on old with ⟨stored, cap, complete, wokenBy⟩
    refine ⟨stored, cap, ?_, wokenBy⟩
    simp only [states, Function.update_of_ne (reserved.complete old notComplete)]
    exact complete
  · intro left right on first second
    exact reserved.alone left right on (before left on first) (before right on second)

end Delivered

theorem Reserved.turn (reserved : Reserved owner woken view) (suspend : Frame Party)
    (notRecv : ∀ guard party epCap, suspend ≠ .inRecv guard party epCap)
    (rest : view.frame = .outside)
    (ownReady : view.roster.states (slotOf view.roster.current) = .ready) :
    Reserved owner woken (view.turn suspend) := by
  have undisturbed : Undisturbed owner view (view.turn suspend) := by
    by_cases alone : view.roster.ready = []
    · have still : view.turn suspend = view := by simp only [View.turn, alone]
      rw [still]
      exact ⟨fun _ _ => rfl, View.not_receiving rest, fun _ _ => rfl, fun _ _ _ _ => rfl⟩
    · refine ⟨?_, ?_, ?_, ?_⟩
      · intro idx different
        rw [View.frames_turn alone, Function.update_of_ne different]
      · intro guard party epCap
        rw [View.frames_turn alone, Function.update_self]
        exact notRecv guard party epCap
      · intro idx _
        rw [View.world_turn]
      · intro idx ep _ _
        rw [View.world_turn]
  exact reserved.kept undisturbed (View.states_turn _ _) ownReady

theorem woken_after_same (woken : Index → Option Parcel) (event : Event Party Machine)
    (states : next.roster.states = view.roster.states) :
    wokenAfter woken view event next = woken := by
  funext idx
  unfold wokenAfter
  split
  · rw [states]
    apply if_neg
    rintro ⟨notReady, isReady⟩
    exact notReady isReady
  · rfl

theorem installs_room {state : EndpointState} {msg : Message} {cap : Option Capability}
    {fresh : Option CapHandle} {table after : CapabilityTable}
    (stored : state.stored = some (msg, cap)) (installs : Installs table cap fresh after) :
    ¬ (state.parked.isSome = true ∧ isFull table = true) := by
  rintro ⟨parked, full⟩
  have same : state.parked = cap := by simp [EndpointState.parked, stored]
  rw [same] at parked
  rcases Option.isSome_iff_exists.mp parked with ⟨capability, rfl⟩
  rcases installs with ⟨handle, _, inserted⟩
  have empty : table.freeHead = none := by simpa [isFull] using full
  rw [CapTable.insert_root_full empty] at inserted
  cases inserted

theorem Reserved.busy (reserved : Reserved owner woken view) {idx : Index} {ep : EndpointHandle}
    (awaits : Awaits view idx ep) : endpointState view.world ep ≠ .idle := by
  intro isIdle
  rcases reserved.reserved idx ep awaits with ⟨msg, cap, complete, _⟩
  rw [isIdle] at complete
  cases complete

theorem Reserved.resumed (reserved : Reserved owner woken view) {guard : IrqState}
    {party : Party} {epCap : CapHandle} (suspended : view.frame = .inRecv guard party epCap)
    (ownReady : view.roster.states (slotOf view.roster.current) = .ready) :
    party = owner (slotOf view.roster.current) ∧ ∃ ep,
      Names (view.world.tables party) epCap .recv ep ∧
      Awaits view (slotOf view.roster.current) ep := by
  rcases reserved.suspended _ guard party epCap suspended with ⟨own, ep, names⟩
  exact ⟨own, ep, names, ownReady, guard, party, epCap, suspended, names⟩

variable [DecidableEq Party] {build : Build} {event : Event Party Machine}
  {result : Except SchedError Reply}

theorem Reserved.receive {world : World Party} {epCap : CapHandle}
    {outcome : Except IpcError RecvOutcome} (reserved : Reserved owner woken view)
    (separate : Function.Injective owner) (steady : Steady view.world)
    (receives : Receives build view.world (owner (slotOf view.roster.current)) epCap outcome
      world)
    (untouched : ∀ idx ep msg fresh, idx ≠ slotOf view.roster.current → Awaits view idx ep →
      outcome = .ok (.received msg fresh) →
      ¬ Names (view.world.tables (owner (slotOf view.roster.current))) epCap .recv ep)
    (frames : ∀ idx, idx ≠ slotOf view.roster.current → next.frames idx = view.frames idx)
    (outside : next.frames (slotOf view.roster.current) = .outside)
    (sameWorld : next.world = world) : Undisturbed owner view next := by
  subst sameWorld
  refine ⟨frames, ?_, ?_, ?_⟩
  · intro guard party epCap
    rw [outside]
    simp
  · intro idx different
    exact receives.other_tables fun same => different (separate same)
  · intro idx ep different awaits
    exact receives.keeps_busy steady (reserved.busy awaits)
      fun msg fresh took => untouched idx ep msg fresh different awaits took

theorem ViewStep.reserved (step : ViewStep build view event result next)
    (behaves : Behaves build (owner (slotOf view.roster.current)) view.world event)
    (separate : Function.Injective owner) (orderly : Orderly view.roster)
    (coupled : Coupled view.roster view.world) (honest : ¬ Steals view event)
    (reserved : Reserved owner woken view) :
    Reserved owner (wokenAfter woken view event next) next := by
  have steady := coupled.steady
  have ownReady := (orderly.enrolled view.roster.current List.mem_cons_self).2
  have settle : ∀ (happened : Event Party Machine) (final : View Party),
      Undisturbed owner view final → final.roster.states = view.roster.states →
      Reserved owner (wokenAfter woken view happened final) final := by
    intro happened final undisturbed states
    rw [woken_after_same _ _ states]
    exact reserved.kept undisturbed states ownReady
  have back : ∀ idx, idx ≠ slotOf view.roster.current → view.back.frames idx = view.frames idx :=
    fun idx different => Function.update_of_ne different _ _
  have outsideBack : view.back.frames (slotOf view.roster.current) = .outside :=
    Function.update_self _ _ _
  have backUndisturbed : Undisturbed owner view view.back :=
    ⟨back, by simp [outsideBack], fun _ _ => rfl, fun _ _ _ _ => rfl⟩
  cases step with
  | yielded rest =>
      rw [woken_after_same _ _ (View.states_turn _ _)]
      exact reserved.turn _ (by simp) rest ownReady
  | sent rest sends quiet =>
      cases behaves with
      | sends =>
          refine settle _ _ ?_ rfl
          refine ⟨fun _ _ => rfl, View.not_receiving rest, ?_, ?_⟩
          · exact fun idx different => sends.other_tables fun same => different (separate same)
          · exact fun idx ep _ awaits => sends.keeps_busy steady quiet (reserved.busy awaits)
  | @delivered party epCap msg transfer ep world awake guard rest resolves sends wakes =>
      cases behaves with
      | sends =>
          rcases sends.delivers steady with ⟨home, owned, names, live, waiting, takes, states⟩
          cases (endpoint_at_named names).symm.trans resolves
          subst wakes
          have sameFrame : (View.mk (view.roster.wake ep) world view.frames).frame = .outside := by
            simpa only [View.frame, Roster.current_wake] using rest
          refine Reserved.turn ?_ _ (by simp) sameFrame
            ((orderly.wake ep).enrolled _ List.mem_cons_self).2
          apply reserved.delivered orderly coupled waiting states _ rest
          · intro idx notReady isReady
            rw [← takes_capability takes]
            refine if_pos ⟨notReady, ?_⟩
            rw [View.states_turn]
            exact isReady
          · intro idx isReady
            exact if_neg fun changed => changed.1 isReady
          · exact fun idx different => sends.other_tables fun same => different (separate same)
  | received rest receives done =>
      cases behaves with
      | receives =>
          refine settle _ _ ?_ rfl
          refine reserved.receive separate steady receives ?_ (fun _ _ => rfl) rest rfl
          intro idx ep msg fresh different awaits took names
          rw [took] at receives
          rcases receives.takes steady with ⟨home, cap, otherNames, live, stored, installs, _⟩
          cases names_unique names otherNames
          exact honest ⟨_, _, ep, idx, rfl, names, live, installs_room stored installs, awaits⟩
  | deadlocked rest receives alone =>
      cases behaves with
      | receives =>
          refine settle _ _ ?_ rfl
          refine reserved.receive separate steady receives ?_ (fun _ _ => rfl) rest rfl
          intro idx ep msg fresh _ _ took
          cases took
  | @blocked party epCap ep world guard rest resolves receives others =>
      cases behaves with
      | receives =>
          rcases receives.pends steady with ⟨home, names, live, idle, tables, states⟩
          cases (endpoint_at_named names).symm.trans resolves
          exact reserved.block guard others names idle states tables
  | backFromYield suspended => exact settle _ _ backUndisturbed rfl
  | backFromSend suspended => exact settle _ _ backUndisturbed rfl
  | collected suspended receives done =>
      rcases reserved.resumed suspended ownReady with ⟨rfl, home, names, awaits⟩
      refine settle _ _ ?_ rfl
      refine reserved.receive separate steady receives ?_ back outsideBack rfl
      intro idx ep msg fresh different others _ otherNames
      cases names_unique names otherNames
      exact different (reserved.alone idx _ home others awaits)
  | pendingAfterResume suspended receives =>
      rcases reserved.resumed suspended ownReady with ⟨rfl, home, names, awaits⟩
      rcases receives.pends steady with ⟨ep, otherNames, _, idle, _⟩
      cases names_unique names otherNames
      exact absurd idle (reserved.busy awaits)
  | elsewhere rest =>
      rcases behaves.elsewhere steady with ⟨_, states, _, tables⟩
      refine settle _ _ ?_ rfl
      refine ⟨fun _ _ => rfl, View.not_receiving rest, ?_, ?_⟩
      · exact fun idx different => tables _ fun same => different (separate same)
      · exact fun idx ep _ _ => congrFun states ep

theorem ViewStep.collects {guard : IrqState} {party : Party} {epCap : CapHandle}
    (step : ViewStep build view (.resume : Event Party Machine) result next)
    (suspended : view.frame = .inRecv guard party epCap) (orderly : Orderly view.roster)
    (coupled : Coupled view.roster view.world) (reserved : Reserved owner woken view) :
    ∃ msg cap, woken (slotOf view.roster.current) = some (msg, cap) ∧
      ((∃ fresh, result = .ok (.received (.received msg fresh)) ∧
          fresh.bind (capabilityAt (next.world.tables party)) = cap) ∨
        (result = .error (.ipc .receiverTableFull) ∧
          ∃ ep, endpointAt (view.world.tables party) epCap = some ep ∧
            endpointState next.world ep = .recvComplete msg cap)) := by
  have steady := coupled.steady
  have ownReady := (orderly.enrolled view.roster.current List.mem_cons_self).2
  rcases reserved.resumed suspended ownReady with ⟨own, ep, names, awaits⟩
  rcases reserved.reserved _ ep awaits with ⟨msg, cap, complete, wokenBy⟩
  refine ⟨msg, cap, wokenBy, ?_⟩
  cases step with
  | backFromYield frame => cases suspended.symm.trans frame
  | backFromSend frame => cases suspended.symm.trans frame
  | @collected _ _ _ outcome world frame receives done =>
      cases suspended.symm.trans frame
      cases outcome with
      | error error =>
          rcases receives.fails steady with ⟨refuses, _, states⟩
          cases refuses with
          | unnamed nobody =>
              have live : Live view.world.arena ep.slot := steady.live_of_busy (by simp [complete])
              exact absurd live (nobody ep names)
          | full otherNames _ _ _ =>
              refine Or.inr ⟨rfl, ep, endpoint_at_named names, ?_⟩
              exact (congrFun states ep).trans complete
          | busy otherNames _ waiting =>
              cases names_unique names otherNames
              cases complete.symm.trans waiting
      | ok value =>
          cases value with
          | pending => exact absurd rfl done
          | received taken fresh =>
              rcases receives.takes steady with ⟨home, found, otherNames, _, stored, installs, _⟩
              cases names_unique names otherNames
              rw [complete] at stored
              cases stored
              exact Or.inl ⟨fresh, rfl,
                installs_capability installs (steady.sound.tables _)⟩
  | pendingAfterResume frame receives =>
      cases suspended.symm.trans frame
      rcases receives.pends steady with ⟨home, otherNames, _, idle, _⟩
      cases names_unique names otherNames
      cases complete.symm.trans idle

end Steps

/-! ## Whole runs -/

def CollectsOwn (front : KernelTrace Party Context Machine)
    (taken : Transition (Kernel Party Context Machine) (KernelLabel Party Machine)) : Prop :=
  ∀ current guard party epCap, taken.label.event = .resume →
    taken.before.sched.current = some current →
    taken.before.frames (slotOf current) = .inRecv guard party epCap →
    ∃ msg cap, wokenWith front (slotOf current) = some (msg, cap) ∧
      ((∃ fresh, taken.label.result = .ok (.received (.received msg fresh)) ∧
          fresh.bind (capabilityAt (taken.after.world.tables party)) = cap) ∨
        (taken.label.result = .error (.ipc .receiverTableFull) ∧
          ∃ ep, endpointAt (taken.before.world.tables party) epCap = some ep ∧
            stateAt taken.after.world.queues ep = .recvComplete msg cap))

section Runs

variable [DecidableEq Party] {cpu : Cpu Context Machine} {build : Build}
  {owner : Index → Party} {kernel after : Kernel Party Context Machine}
  {trace : KernelTrace Party Context Machine}

omit [DecidableEq Party] in
theorem reserved_at_boot (owner : Index → Party) (world : World Party) (first : TaskHandle)
    (rest : List TaskHandle) :
    Reserved owner (fun _ => none) ⟨startingRoster first rest, world, fun _ => .outside⟩ := by
  refine ⟨?_, ?_, ?_, ?_⟩
  · intro idx ep blocked
    exact absurd blocked (starting_not_blocked first rest idx ep)
  · intro idx guard party epCap frame
    cases frame
  · rintro idx ep ⟨_, guard, party, epCap, frame, _⟩
    cases frame
  · rintro left right ep ⟨_, guard, party, epCap, frame, _⟩
    cases frame

theorem reserved_of_run (separate : Function.Injective owner) (intact : Intact kernel)
    (coupled : Coupled (rosterOf kernel.sched) kernel.world)
    (initial : Reserved owner (fun _ => none) (viewOf kernel))
    (run : Run (BridgeStep cpu build owner) kernel trace after)
    (honest : ∀ taken ∈ trace, ¬ Steals (viewOf taken.before) taken.label.event) :
    Reserved owner (wokenWith trace) (viewOf after) := by
  induction run with
  | nil => exact initial
  | @snoc earlier middle final label ran step ih =>
      have before := ih fun taken member => honest taken (by simp [member])
      rcases coupled_of_run intact coupled ran with ⟨reached, held⟩
      have moved := (step.1.view_step reached).2
      rw [woken_with_snoc]
      exact moved.reserved step.2 separate reached.orderly held
        (honest ⟨middle, label, final⟩ (by simp)) before

theorem collects_own_of_reserved {front : KernelTrace Party Context Machine}
    {label : KernelLabel Party Machine} (intact : Intact kernel)
    (coupled : Coupled (rosterOf kernel.sched) kernel.world)
    (reserved : Reserved owner (wokenWith front) (viewOf kernel))
    (step : KernelStep cpu build kernel label after) :
    CollectsOwn front ⟨kernel, label, after⟩ := by
  intro current guard party epCap resumed isCurrent suspended
  cases isCurrent.symm.trans intact.shows.current
  have moved := (step.view_step intact).2
  rw [show label.event = .resume from resumed] at moved
  exact moved.collects suspended intact.orderly coupled reserved

end Runs

section Boot

variable [DecidableEq Party] (cpu : Cpu Context Machine) (build : Build) (machine : Machine)

/-- In every run of the bridge functions in which no task receives from an endpoint
while a woken receiver of it is still suspended, every receiver that goes on collects
the parcel of the send that woke it, or leaves it stored for want of room. -/
theorem resumed_receiver_collects {world : World Party} (fresh : Fresh world)
    {owner : Index → Party} (separate : Function.Injective owner)
    {registrations : List Registration} {idler : TaskHandle}
    (registrable : Registrable (registrations.map Registration.handle))
    (isRegistered : idler ∈ registrations.map Registration.handle) :
    ∃ booted, start cpu registrations (powerOn cpu world machine) = .ok () booted ∧
      ∀ trace after, Run (IdledStep cpu build owner idler) booted trace after →
        (∀ taken ∈ trace, ¬ Steals (viewOf taken.before) taken.label.event) →
        ∀ front taken back, trace = front ++ taken :: back → CollectsOwn front taken := by
  rcases boot_run cpu world machine (anyone_of_registered isRegistered) registrable with
    ⟨booted, first, rest, ran, handles, intact, shown⟩
  have coupled := coupled_at_boot fresh shown
  have initial : Reserved owner (fun _ => none) (viewOf booted) := by
    rw [shown]
    exact reserved_at_boot owner world first rest
  refine ⟨booted, ran, ?_⟩
  rintro trace after run honest front taken back rfl
  rcases run_at run with ⟨early, step⟩
  have earlier := idled_bridge_run early
  rcases coupled_of_run intact coupled earlier with ⟨reached, held⟩
  have reserved := reserved_of_run separate intact coupled initial earlier
    fun other inFront => honest other (by simp [inFront])
  exact collects_own_of_reserved reached held reserved step.1.1

end Boot

/-! ## A message taken away, and one collected -/

def beforeRetry : List (Cue Index) := [recvBy 0, sendBy 1 7, recvBy 2, yieldBy, yieldBy]

/-- The third task receives the message the receiver was woken for, and the receiver
reports that nothing was there. -/
theorem message_taken_away :
    start plainCpu [taskIn 0, taskIn 1, taskIn 2, taskIn 3]
        (powerOn plainCpu sharedWorld (0, 0)) = .ok () quartet ∧
      Run (IdledStep plainCpu ⟨true⟩ id ⟨⟨3, 0⟩⟩) quartet
        (played plainCpu ⟨true⟩ takenAway quartet)
        (playedTo plainCpu ⟨true⟩ takenAway quartet) ∧
      ∃ taken, played plainCpu ⟨true⟩ takenAway quartet =
          played plainCpu ⟨true⟩ beforeRetry quartet ++ [taken] ∧
        taken.label.event = .resume ∧
        taken.label.result = .error (.ipc .pendingAfterResume) ∧
        ¬ CollectsOwn (played plainCpu ⟨true⟩ beforeRetry quartet) taken := by
  have reported : (cueLabel plainCpu ⟨true⟩ (playedTo plainCpu ⟨true⟩ beforeRetry quartet)
      .resume).result = .error (.ipc .pendingAfterResume) := by decide +kernel
  refine ⟨(boots_with (by simp) quartet_registrable).1, taken_away_run, _, rfl, rfl, reported, ?_⟩
  intro collects
  rcases collects ⟨⟨0, 0⟩⟩ 0x3c0 0 ⟨0, 0⟩ rfl (by decide +kernel) (by decide +kernel) with
    ⟨msg, cap, _, ⟨fresh, received, _⟩ | ⟨refused, _⟩⟩
  · cases reported.symm.trans received
  · cases reported.symm.trans refused

def leftAlone : List (Cue Index) := [recvBy 0, sendBy 1 7, yieldBy, yieldBy]

theorem played_honest {cues : List (Cue Index)} {kernel : PlainKernel}
    (noReceive : ∀ party epCap, .call (.ipcRecvAndYield party epCap) ∉ cues) :
    ∀ taken ∈ played plainCpu ⟨true⟩ cues kernel,
      ¬ Steals (viewOf taken.before) taken.label.event := by
  induction cues generalizing kernel with
  | nil =>
      intro taken member
      cases member
  | cons cue rest ih =>
      intro taken member
      rcases List.mem_cons.mp member with first | later
      · rintro ⟨party, epCap, _, _, called, _⟩
        rw [first] at called
        cases cue with
        | resume => cases called
        | call made =>
            cases called
            exact noReceive party epCap List.mem_cons_self
      · exact ih (fun party epCap inRest => noReceive party epCap (List.mem_cons_of_mem _ inRest))
          taken later

theorem played_honest_first {cue : Cue Index} {rest : List (Cue Index)} {kernel : PlainKernel}
    (outside : kernel.frames = fun _ => .outside)
    (noReceive : ∀ party epCap, .call (.ipcRecvAndYield party epCap) ∉ rest) :
    ∀ taken ∈ played plainCpu ⟨true⟩ (cue :: rest) kernel,
      ¬ Steals (viewOf taken.before) taken.label.event := by
  intro taken member
  rcases List.mem_cons.mp member with first | later
  · rintro ⟨_, _, _, idx, _, _, _, _, _, guard, party, epCap, frame, _⟩
    rw [first] at frame
    have suspended : kernel.frames idx = .inRecv guard party epCap := frame
    rw [outside] at suspended
    cases suspended
  · exact played_honest noReceive taken later

theorem resumed_receiver_collects_seven :
    (cueLabel plainCpu ⟨true⟩ (playedTo plainCpu ⟨true⟩ leftAlone quartet) .resume).result =
        .ok (.received (.received ⟨7, #v[0, 0, 0]⟩ none)) ∧
      CollectsOwn (played plainCpu ⟨true⟩ leftAlone quartet)
        ⟨playedTo plainCpu ⟨true⟩ leftAlone quartet,
          cueLabel plainCpu ⟨true⟩ (playedTo plainCpu ⟨true⟩ leftAlone quartet) .resume,
          cueAfter plainCpu ⟨true⟩ (playedTo plainCpu ⟨true⟩ leftAlone quartet) .resume⟩ := by
  rcases resumed_receiver_collects plainCpu ⟨true⟩ (0, 0) shared_world_fresh
    Function.injective_id quartet_registrable
    (show (⟨⟨3, 0⟩⟩ : TaskHandle) ∈ _ by decide) with ⟨reached, ran, collects⟩
  have booted : quartet = reached := booted_with ran
  rw [← booted] at collects
  have run : Run (IdledStep plainCpu ⟨true⟩ id ⟨⟨3, 0⟩⟩) quartet
      (played plainCpu ⟨true⟩ (leftAlone ++ [.resume]) quartet)
      (playedTo plainCpu ⟨true⟩ (leftAlone ++ [.resume]) quartet) :=
    idled_played_run (by decide +kernel) (by decide +kernel)
  have honest := @played_honest_first (recvBy 0) [sendBy 1 7, yieldBy, yieldBy, .resume] quartet
    (boots_with (by simp) quartet_registrable).2 (by simp [sendBy, yieldBy])
  exact ⟨by decide +kernel, collects _ _ run honest _ _ [] rfl⟩

end Tyrne.Sched
