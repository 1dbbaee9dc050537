import Mathlib.Data.List.Perm.Basic
import Tyrne.Lib.LinkedList
import Tyrne.Scheduler

/-!
# Rosters

What the scheduler keeps, without arrays: the task in control, the tasks that are
ready in the order in which they will get it, and for each slot the state and the
handle of its task. Scheduling changes a roster in three ways: the task in control
goes to the end of the line, a blocked task joins the line, and the task in control
blocks. In an orderly roster every registered task is in control, in line once, or
blocked, and the three changes keep that.
-/

namespace Tyrne.Sched

open Tyrne.Lib.Effect
open Tyrne.Lib.LinkedList (length_le_of_nodup)
open Tyrne.Cap

set_option autoImplicit false

structure Roster where
  current : TaskHandle
  ready : List TaskHandle
  states : Index → TaskState
  handles : Index → Option TaskHandle

def slotOf (handle : TaskHandle) : Index := handle.slot.index

namespace Roster

def runnable (roster : Roster) : List TaskHandle := roster.current :: roster.ready

/-- The task in control goes to the end of the line and the first in line takes over. -/
def rotate (roster : Roster) : Roster :=
  match roster.ready with
  | [] => roster
  | next :: rest => { roster with current := next, ready := rest ++ [roster.current] }

def waiterOn (roster : Roster) (ep : EndpointHandle) : Option Index :=
  (List.range taskArenaCapacity).find? fun idx => roster.states idx = .blocked ep

/-- The task of `idx` joins the line. -/
def rejoin (roster : Roster) (idx : Index) (handle : TaskHandle) : Roster :=
  { roster with
    ready := roster.ready ++ [handle], states := Function.update roster.states idx .ready }

def enroll (roster : Roster) (handle : TaskHandle) : Roster :=
  { roster with
    ready := roster.ready ++ [handle]
    states := Function.update roster.states (slotOf handle) .ready
    handles := Function.update roster.handles (slotOf handle) (some handle) }

/-- The task that waits on `ep`, if there is one, joins the line. -/
def wake (roster : Roster) (ep : EndpointHandle) : Roster :=
  match roster.waiterOn ep with
  | none => roster
  | some idx =>
      match roster.handles idx with
      | none => roster
      | some handle => roster.rejoin idx handle

/-- The task in control blocks on `ep` and the first in line takes over. -/
def block (roster : Roster) (ep : EndpointHandle) : Roster :=
  match roster.ready with
  | [] => roster
  | next :: rest =>
      { roster with
        current := next
        ready := rest
        states := Function.update roster.states (slotOf roster.current) (.blocked ep) }

@[simp] theorem handles_rotate (roster : Roster) : roster.rotate.handles = roster.handles := by
  cases line : roster.ready with
  | nil => simp only [rotate, line]
  | cons next rest => simp only [rotate, line]

theorem wake_keeps {Part : Type} {part : Roster → Part}
    (kept : ∀ roster idx handle, part (rejoin roster idx handle) = part roster)
    (roster : Roster) (ep : EndpointHandle) : part (roster.wake ep) = part roster := by
  cases waiter : roster.waiterOn ep with
  | none => simp only [wake, waiter]
  | some idx =>
      cases known : roster.handles idx with
      | none => simp only [wake, waiter, known]
      | some handle => simp only [wake, waiter, known, kept]

@[simp] theorem handles_wake (roster : Roster) (ep : EndpointHandle) :
    (roster.wake ep).handles = roster.handles :=
  wake_keeps (fun _ _ _ => rfl) roster ep

@[simp] theorem current_wake (roster : Roster) (ep : EndpointHandle) :
    (roster.wake ep).current = roster.current :=
  wake_keeps (fun _ _ _ => rfl) roster ep

@[simp] theorem handles_block (roster : Roster) (ep : EndpointHandle) :
    (roster.block ep).handles = roster.handles := by
  cases line : roster.ready with
  | nil => simp only [block, line]
  | cons next rest => simp only [block, line]

@[simp] theorem states_rotate (roster : Roster) : roster.rotate.states = roster.states := by
  cases line : roster.ready with
  | nil => simp only [rotate, line]
  | cons next rest => simp only [rotate, line]

theorem states_block (roster : Roster) (ep : EndpointHandle) (others : roster.ready ≠ []) :
    (roster.block ep).states =
      Function.update roster.states (slotOf roster.current) (.blocked ep) := by
  cases line : roster.ready with
  | nil => exact absurd line others
  | cons next rest => simp only [block, line]

end Roster

/-- Every registered task is in control, in line once, or blocked, and the slots agree. -/
structure Orderly (roster : Roster) : Prop where
  distinct : (roster.runnable.map slotOf).Nodup
  enrolled : ∀ handle ∈ roster.runnable, roster.handles (slotOf handle) = some handle ∧
    roster.states (slotOf handle) = .ready
  attended : ∀ idx, roster.states idx = .ready → ∃ handle ∈ roster.runnable, slotOf handle = idx
  vacant : ∀ idx, roster.states idx = .idle ↔ roster.handles idx = none
  home : ∀ idx handle, roster.handles idx = some handle →
    slotOf handle = idx ∧ idx < taskArenaCapacity

section Orderly

variable {roster : Roster}

theorem Orderly.reordered (orderly : Orderly roster) {other : Roster}
    (same : other.runnable.Perm roster.runnable) (states : other.states = roster.states)
    (handles : other.handles = roster.handles) : Orderly other where
  distinct := (same.map slotOf).nodup_iff.mpr orderly.distinct
  enrolled := by
    intro handle member
    rw [states, handles]
    exact orderly.enrolled handle (same.mem_iff.mp member)
  attended := by
    intro idx isReady
    rw [states] at isReady
    rcases orderly.attended idx isReady with ⟨handle, member, slot⟩
    exact ⟨handle, same.mem_iff.mpr member, slot⟩
  vacant := by
    rw [states, handles]
    exact orderly.vacant
  home := by
    rw [handles]
    exact orderly.home

theorem Orderly.slot_in_range (orderly : Orderly roster) {handle : TaskHandle}
    (member : handle ∈ roster.runnable) : slotOf handle < taskArenaCapacity :=
  (orderly.home _ _ (orderly.enrolled handle member).1).2

theorem Orderly.room (orderly : Orderly roster) : roster.ready.length < taskArenaCapacity := by
  have bounded := length_le_of_nodup orderly.distinct (by
    intro idx member
    rcases List.mem_map.mp member with ⟨handle, runnable, rfl⟩
    exact orderly.slot_in_range runnable)
  simp only [Roster.runnable, List.map_cons, List.length_cons, List.length_map] at bounded
  omega

theorem Orderly.current_not_ready (orderly : Orderly roster) :
    slotOf roster.current ∉ roster.ready.map slotOf :=
  (List.nodup_cons.mp orderly.distinct).1

theorem Orderly.next_apart (orderly : Orderly roster) {next : TaskHandle}
    {rest : List TaskHandle} (line : roster.ready = next :: rest) :
    slotOf roster.current ≠ slotOf next := by
  intro same
  apply orderly.current_not_ready
  simp [line, same]

theorem next_runnable {next : TaskHandle} {rest : List TaskHandle}
    (line : roster.ready = next :: rest) : next ∈ roster.runnable := by
  simp [Roster.runnable, line]

theorem Orderly.rotate (orderly : Orderly roster) : Orderly roster.rotate := by
  cases line : roster.ready with
  | nil =>
      have same : roster.rotate = roster := by simp [Roster.rotate, line]
      rw [same]
      exact orderly
  | cons next rest =>
      apply orderly.reordered
      · simp only [Roster.rotate, Roster.runnable, line]
        rw [← List.cons_append]
        exact (List.perm_append_singleton _ _).trans (List.Perm.refl _)
      · simp [Roster.rotate, line]
      · simp [Roster.rotate, line]

theorem Orderly.enroll (orderly : Orderly roster) {handle : TaskHandle}
    (aside : roster.states (slotOf handle) ≠ .ready)
    (inRange : slotOf handle < taskArenaCapacity) : Orderly (roster.enroll handle) := by
  have apart : ∀ other ∈ roster.runnable, slotOf other ≠ slotOf handle := by
    intro other member same
    apply aside
    rw [← same]
    exact (orderly.enrolled other member).2
  have joined : (roster.enroll handle).runnable = roster.runnable ++ [handle] := rfl
  refine ⟨?_, ?_, ?_, ?_, ?_⟩
  · rw [joined, List.map_append, List.nodup_append]
    refine ⟨orderly.distinct, by simp, ?_⟩
    intro left leftMember right rightMember
    rcases List.mem_map.mp leftMember with ⟨other, runnable, rfl⟩
    simp only [List.map_cons, List.map_nil, List.mem_singleton] at rightMember
    rw [rightMember]
    exact apart other runnable
  · intro other member
    rw [joined, List.mem_append, List.mem_singleton] at member
    simp only [Roster.enroll]
    rcases member with old | rfl
    · rw [Function.update_of_ne (apart other old), Function.update_of_ne (apart other old)]
      exact orderly.enrolled other old
    · simp
  · intro other isReady
    rw [joined]
    simp only [Roster.enroll] at isReady
    by_cases same : other = slotOf handle
    · exact ⟨handle, by simp, same.symm⟩
    · rw [Function.update_of_ne same] at isReady
      rcases orderly.attended other isReady with ⟨found, member, slot⟩
      exact ⟨found, List.mem_append_left _ member, slot⟩
  · intro other
    simp only [Roster.enroll]
    by_cases same : other = slotOf handle
    · rw [same, Function.update_self, Function.update_self]
      simp
    · rw [Function.update_of_ne same, Function.update_of_ne same]
      exact orderly.vacant other
  · intro other found known
    simp only [Roster.enroll] at known
    by_cases same : other = slotOf handle
    · rw [same, Function.update_self] at known
      cases known
      exact ⟨same.symm, same ▸ inRange⟩
    · rw [Function.update_of_ne same] at known
      exact orderly.home other found known

theorem Orderly.rejoin (orderly : Orderly roster) {idx : Index} {handle : TaskHandle}
    {ep : EndpointHandle} (blocked : roster.states idx = .blocked ep)
    (known : roster.handles idx = some handle) : Orderly (roster.rejoin idx handle) := by
  rcases orderly.home idx handle known with ⟨slot, inRange⟩
  subst slot
  have again : roster.rejoin (slotOf handle) handle = roster.enroll handle := by
    simp only [Roster.rejoin, Roster.enroll, ← known, Function.update_eq_self]
  rw [again]
  exact orderly.enroll (by rw [blocked]; simp) inRange

theorem waiter_blocked {ep : EndpointHandle} {idx : Index}
    (found : roster.waiterOn ep = some idx) : roster.states idx = .blocked ep := by
  have holds := List.find?_some found
  simpa using holds

theorem Orderly.known (orderly : Orderly roster) {idx : Index}
    (used : roster.states idx ≠ .idle) : ∃ handle, roster.handles idx = some handle := by
  cases found : roster.handles idx with
  | none => exact absurd ((orderly.vacant idx).mpr found) used
  | some handle => exact ⟨handle, rfl⟩

theorem Orderly.wake_some (orderly : Orderly roster) {ep : EndpointHandle} {idx : Index}
    (found : roster.waiterOn ep = some idx) :
    ∃ handle, roster.handles idx = some handle ∧ roster.wake ep = roster.rejoin idx handle := by
  have blocked := waiter_blocked found
  rcases orderly.known (by rw [blocked]; simp) with ⟨handle, known⟩
  exact ⟨handle, known, by simp [Roster.wake, found, known]⟩

theorem wake_none {ep : EndpointHandle} (nobody : roster.waiterOn ep = none) :
    roster.wake ep = roster := by
  simp [Roster.wake, nobody]

theorem Orderly.waiter_exists (orderly : Orderly roster) {ep : EndpointHandle} {idx : Index}
    (blocked : roster.states idx = .blocked ep) : ∃ waiter, roster.waiterOn ep = some waiter := by
  cases found : roster.waiterOn ep with
  | some waiter => exact ⟨waiter, rfl⟩
  | none =>
      rcases orderly.known (by rw [blocked]; simp) with ⟨handle, known⟩
      have inRange := (orderly.home idx handle known).2
      have never := List.find?_eq_none.mp found idx (List.mem_range.mpr inRange)
      simp [blocked] at never

theorem Orderly.wake (orderly : Orderly roster) (ep : EndpointHandle) :
    Orderly (roster.wake ep) := by
  cases found : roster.waiterOn ep with
  | none =>
      rw [wake_none found]
      exact orderly
  | some idx =>
      rcases orderly.wake_some found with ⟨handle, known, woken⟩
      rw [woken]
      exact orderly.rejoin (waiter_blocked found) known

theorem Orderly.block (orderly : Orderly roster) (ep : EndpointHandle) :
    Orderly (roster.block ep) := by
  cases line : roster.ready with
  | nil =>
      have same : roster.block ep = roster := by simp [Roster.block, line]
      rw [same]
      exact orderly
  | cons next rest =>
      have blocked : roster.block ep =
          { roster with
            current := next
            ready := rest
            states := Function.update roster.states (slotOf roster.current) (.blocked ep) } := by
        simp [Roster.block, line]
      have members : ∀ handle, handle ∈ next :: rest → handle ∈ roster.runnable := by
        intro handle member
        simp only [Roster.runnable, line]
        exact List.mem_cons_of_mem _ member
      have apart : ∀ handle, handle ∈ next :: rest → slotOf handle ≠ slotOf roster.current := by
        intro handle member same
        apply orderly.current_not_ready
        rw [line, ← same]
        exact List.mem_map_of_mem member
      rw [blocked]
      refine ⟨?_, ?_, ?_, ?_, orderly.home⟩
      · have distinct := orderly.distinct
        simp only [Roster.runnable, line, List.map_cons] at distinct ⊢
        exact (List.nodup_cons.mp distinct).2
      · intro handle member
        have facts := orderly.enrolled handle (members handle member)
        simp only
        rw [Function.update_of_ne (apart handle member)]
        exact facts
      · intro idx isReady
        simp only at isReady
        by_cases same : idx = slotOf roster.current
        · rw [same, Function.update_self] at isReady
          cases isReady
        · rw [Function.update_of_ne same] at isReady
          rcases orderly.attended idx isReady with ⟨handle, member, slot⟩
          simp only [Roster.runnable, line] at member
          rcases List.mem_cons.mp member with isCurrent | later
          · subst isCurrent
            exact absurd slot.symm same
          · exact ⟨handle, later, slot⟩
      · intro idx
        simp only
        by_cases same : idx = slotOf roster.current
        · have known := (orderly.enrolled roster.current (by simp [Roster.runnable])).1
          rw [same, Function.update_self, known]
          simp
        · rw [Function.update_of_ne same]
          exact orderly.vacant idx

end Orderly

end Tyrne.Sched
