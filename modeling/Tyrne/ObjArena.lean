import Mathlib.Logic.Function.Basic
import Tyrne.Cap
import Tyrne.Lib.LinkedList

/-!
# Arenas of kernel objects

`Arena<T, N>` of `kernel/src/obj/arena.rs` and the endpoint arena of
`obj/endpoint.rs`: a fixed array of slots, each empty or holding a value, with the
empty ones linked into a free list and a generation on every slot.
-/

namespace Tyrne.ObjArena

open Tyrne.Lib.Effect
open Tyrne.Lib.LinkedList
open Tyrne.Cap

set_option autoImplicit false

structure Slot (Value : Type) where
  entry : Option Value
  generation : Generation
  nextFree : Option Index
  deriving DecidableEq, Repr

structure Arena (Value : Type) (size : Nat) where
  slots : Vector (Slot Value) size
  freeHead : Option Index
  deriving DecidableEq, Repr

/-- `ObjError`. -/
inductive ObjError where
  | arenaFull
  | invalidHandle
  | stillReachable
  deriving DecidableEq, Repr

section Operations

variable {Value : Type} {size : Nat}

def new : Arena Value size where
  slots := Vector.ofFn fun i =>
    { entry := none
      generation := 0
      nextFree := if i.val + 1 < size then some (i.val + 1) else none }
  freeHead := if 0 < size then some 0 else none

def writeSlot (arena : Arena Value size) (index : Index) (slot : Slot Value) :
    Arena Value size :=
  { arena with slots := arena.slots.setIfInBounds index slot }

/-- The head of the free list is checked by `debug_assert!` and again by `get_mut`. -/
def allocate (build : Build) (value : Value) :
    Eff Fault (Arena Value size) ObjError (Option SlotId) := do
  let arena ← read
  match arena.freeHead with
  | none => pure none
  | some head =>
      debugAssert build (decide (head < size)) .freeHeadOutOfBounds
      match arena.slots[head]? with
      | none => pure none
      | some slot =>
          write { writeSlot arena head { slot with entry := some value, nextFree := none } with
            freeHead := slot.nextFree }
          pure (some { index := head, generation := slot.generation })

def free (id : SlotId) : Eff Fault (Arena Value size) ObjError (Option Value) := do
  let arena ← read
  match arena.slots[id.index]? with
  | none => pure none
  | some slot =>
      if slot.generation ≠ id.generation then pure none
      else
        match slot.entry with
        | none => pure none
        | some value =>
            write { writeSlot arena id.index
                { entry := none, generation := slot.generation + 1, nextFree := arena.freeHead } with
              freeHead := some id.index }
            pure (some value)

def get (arena : Arena Value size) (id : SlotId) : Option Value :=
  match arena.slots[id.index]? with
  | none => none
  | some slot => if slot.generation ≠ id.generation then none else slot.entry

/-- `get_mut`: `change` is what the caller does through the reference; the value it
found there is returned. -/
def getMut (id : SlotId) (change : Value → Value) :
    Eff Fault (Arena Value size) ObjError (Option Value) := do
  let arena ← read
  match arena.slots[id.index]? with
  | none => pure none
  | some slot =>
      if slot.generation ≠ id.generation then pure none
      else
        match slot.entry with
        | none => pure none
        | some value =>
            write (writeSlot arena id.index { slot with entry := some (change value) })
            pure (some value)

def contains (arena : Arena Value size) (id : SlotId) : Bool := (get arena id).isSome

end Operations

/-! ## Endpoints -/

def endpointArenaCapacity : Nat := 16

structure Endpoint where
  id : UInt32
  deriving DecidableEq, Repr

abbrev EndpointArena : Type := Arena Endpoint endpointArenaCapacity

def createEndpoint (build : Build) (endpoint : Endpoint) :
    Eff Fault EndpointArena ObjError EndpointHandle := do
  match ← allocate build endpoint with
  | some slot => pure ⟨slot⟩
  | none => fail .arenaFull

def destroyEndpoint (handle : EndpointHandle) : Eff Fault EndpointArena ObjError Endpoint := do
  match ← free handle.slot with
  | some endpoint => pure endpoint
  | none => fail .invalidHandle

/-! ## Views of an arena -/

section Views

variable {Value : Type} {size : Nat} {arena : Arena Value size} {index : Index}

def entryAt (arena : Arena Value size) (index : Index) : Option Value :=
  arena.slots[index]?.bind Slot.entry

def generationAt (arena : Arena Value size) (index : Index) : Generation :=
  (arena.slots[index]?.map Slot.generation).getD 0

def nextFreeAt (arena : Arena Value size) (index : Index) : Option Index :=
  arena.slots[index]?.bind Slot.nextFree

/-- The id names a value that is still stored. -/
def Live (arena : Arena Value size) (id : SlotId) : Prop :=
  (∃ value, entryAt arena id.index = some value) ∧ generationAt arena id.index = id.generation

theorem slot_in_range (bound : index < size) :
    arena.slots[index]? =
      some ⟨entryAt arena index, generationAt arena index, nextFreeAt arena index⟩ := by
  simp [entryAt, generationAt, nextFreeAt, bound]

theorem in_range_of_entry {value : Value} (stored : entryAt arena index = some value) :
    index < size := by
  by_contra outside
  simp [entryAt, Vector.getElem?_eq_none (Nat.le_of_not_lt outside)] at stored

theorem Live.in_range {id : SlotId} (live : Live arena id) : id.index < size := by
  rcases live.1 with ⟨value, stored⟩
  exact in_range_of_entry stored

theorem Live.unique {left right : SlotId} (leftLive : Live arena left)
    (rightLive : Live arena right) (same : left.index = right.index) : left = right := by
  cases left
  cases right
  cases same
  simp only [SlotId.mk.injEq, true_and]
  exact leftLive.2.symm.trans rightLive.2

theorem get_iff {id : SlotId} : (∃ value, get arena id = some value) ↔ Live arena id := by
  by_cases bound : id.index < size
  · simp only [get, slot_in_range bound, Live]
    by_cases same : generationAt arena id.index = id.generation
    · simp [same]
    · simp [same]
  · have outside : arena.slots[id.index]? = none :=
      Vector.getElem?_eq_none (Nat.le_of_not_lt bound)
    simp [get, outside, Live, entryAt]

theorem get_stale {id : SlotId} (stale : ¬ Live arena id) : get arena id = none := by
  cases found : get arena id with
  | none => rfl
  | some value => exact absurd (get_iff.mp ⟨value, found⟩) stale

/-! ## Allocation and release -/

/-- Take `index` off the free list and store `value` there. -/
def store (arena : Arena Value size) (index : Index) (value : Value) : Arena Value size :=
  { writeSlot arena index ⟨some value, generationAt arena index, none⟩ with
    freeHead := nextFreeAt arena index }

/-- Empty `index`, advance its generation and put it in front of the free list. -/
def release (arena : Arena Value size) (index : Index) : Arena Value size :=
  { writeSlot arena index ⟨none, generationAt arena index + 1, arena.freeHead⟩ with
    freeHead := some index }

theorem slot_at_written (bound : index < size) (slot : Slot Value) (head : Option Index)
    (other : Index) :
    ({ writeSlot arena index slot with freeHead := head } : Arena Value size).slots[other]? =
      if other = index then some slot else arena.slots[other]? := by
  by_cases same : other = index
  · subst same
    simp [writeSlot, bound]
  · simp [writeSlot, same, Vector.getElem?_setIfInBounds_ne (Ne.symm same)]

section Updates

variable (bound : index < size)
include bound

theorem entry_at_store (value : Value) :
    entryAt (store arena index value) = Function.update (entryAt arena) index (some value) := by
  funext other
  by_cases same : other = index
  · simp [entryAt, store, slot_at_written bound, same]
  · simp [entryAt, store, slot_at_written bound, same]

theorem generation_at_store (value : Value) :
    generationAt (store arena index value) = generationAt arena := by
  funext other
  by_cases same : other = index
  · subst same
    unfold store
    rw [generationAt, slot_at_written bound, if_pos rfl]
    rfl
  · simp [generationAt, store, slot_at_written bound, same]

theorem next_free_at_store (value : Value) :
    nextFreeAt (store arena index value) = Function.update (nextFreeAt arena) index none := by
  funext other
  by_cases same : other = index
  · simp [nextFreeAt, store, slot_at_written bound, same]
  · simp [nextFreeAt, store, slot_at_written bound, same]

theorem entry_at_release :
    entryAt (release arena index) = Function.update (entryAt arena) index none := by
  funext other
  by_cases same : other = index
  · simp [entryAt, release, slot_at_written bound, same]
  · simp [entryAt, release, slot_at_written bound, same]

theorem generation_at_release :
    generationAt (release arena index) =
      Function.update (generationAt arena) index (generationAt arena index + 1) := by
  funext other
  by_cases same : other = index
  · simp [generationAt, release, slot_at_written bound, same]
  · simp [generationAt, release, slot_at_written bound, same]

theorem next_free_at_release :
    nextFreeAt (release arena index) =
      Function.update (nextFreeAt arena) index arena.freeHead := by
  funext other
  by_cases same : other = index
  · simp [nextFreeAt, release, slot_at_written bound, same]
  · simp [nextFreeAt, release, slot_at_written bound, same]

end Updates

def Vacant (arena : Arena Value size) (index : Index) : Prop :=
  index < size ∧ entryAt arena index = none

def WellFormed (arena : Arena Value size) : Prop :=
  FreeList (nextFreeAt arena) arena.freeHead (Vacant arena)

theorem entry_at_new (index : Index) : entryAt (new : Arena Value size) index = none := by
  by_cases bound : index < size
  · simp [entryAt, new, bound]
  · simp [entryAt, Vector.getElem?_eq_none (Nat.le_of_not_lt bound)]

theorem new_well_formed : WellFormed (new : Arena Value size) := by
  have upwards : ∀ cell < size, nextFreeAt (new : Arena Value size) cell =
      if cell + 1 < size then some (cell + 1) else none := by
    intro cell bound
    simp [nextFreeAt, new, bound]
  apply free_list_congr (free_list_initial upwards)
  · intro _ _
    rfl
  · intro cell
    simp [Vacant, entry_at_new]

theorem WellFormed.head_vacant (wellFormed : WellFormed arena) {head : Index}
    (available : arena.freeHead = some head) : Vacant arena head := by
  unfold WellFormed at wellFormed
  rw [available] at wellFormed
  exact free_list_head_free wellFormed

theorem WellFormed.store (wellFormed : WellFormed arena) {head : Index}
    (available : arena.freeHead = some head) (value : Value) :
    WellFormed (store arena head value) := by
  have bound := (wellFormed.head_vacant available).1
  unfold WellFormed at wellFormed
  rw [available] at wellFormed
  apply free_list_congr (free_list_pop wellFormed)
  · intro node _
    rw [next_free_at_store bound]
  · intro node
    simp only [Vacant, entry_at_store bound]
    by_cases same : node = head
    · simp [same]
    · simp [same]

theorem WellFormed.release (wellFormed : WellFormed arena) {value : Value}
    (stored : entryAt arena index = some value) : WellFormed (release arena index) := by
  have bound := in_range_of_entry stored
  have used : ¬ Vacant arena index := by
    intro vacant
    rw [vacant.2] at stored
    cases stored
  apply free_list_congr (free_list_push wellFormed used)
  · intro node _
    rw [next_free_at_release bound]
  · intro node
    simp only [Vacant, entry_at_release bound]
    by_cases same : node = index
    · simp [same, bound]
    · simp [same]

theorem allocate_full (full : arena.freeHead = none) (build : Build) (value : Value) :
    allocate build value arena = .ok none arena := by
  simp [allocate, full]

theorem allocate_run (wellFormed : WellFormed arena) {head : Index}
    (available : arena.freeHead = some head) (build : Build) (value : Value) :
    allocate build value arena =
      .ok (some ⟨head, generationAt arena head⟩) (store arena head value) := by
  have bound := (wellFormed.head_vacant available).1
  have checked : decide (head < size) = true := decide_eq_true bound
  simp only [allocate, bind_run, read_run, and_then_ok, available, checked, debug_assert_true,
    slot_in_range bound, write_run, pure_run, store]

theorem free_stale {id : SlotId} (stale : ¬ Live arena id) :
    free id arena = .ok none arena := by
  by_cases bound : id.index < size
  · by_cases same : generationAt arena id.index = id.generation
    · cases stored : entryAt arena id.index with
      | none => simp [free, slot_in_range bound, same, stored]
      | some value => exact absurd ⟨⟨value, stored⟩, same⟩ stale
    · simp [free, slot_in_range bound, same]
  · simp [free, Vector.getElem?_eq_none (Nat.le_of_not_lt bound)]

theorem free_run {id : SlotId} {value : Value} (stored : entryAt arena id.index = some value)
    (same : generationAt arena id.index = id.generation) :
    free id arena = .ok (some value) (release arena id.index) := by
  have bound := in_range_of_entry stored
  simp [free, slot_in_range bound, same, stored, release]

theorem live_store {head : Index} (bound : head < size) (vacant : entryAt arena head = none)
    (value : Value) {id : SlotId} (live : Live arena id) : Live (store arena head value) id := by
  rcases live.1 with ⟨old, stored⟩
  have elsewhere : id.index ≠ head := by
    intro same
    rw [same, vacant] at stored
    cases stored
  refine ⟨⟨old, ?_⟩, ?_⟩
  · rw [entry_at_store bound, Function.update_of_ne elsewhere, stored]
  · rw [generation_at_store bound, live.2]

theorem live_release {index : Index} (bound : index < size) {id : SlotId}
    (live : Live arena id) (elsewhere : id.index ≠ index) : Live (release arena index) id := by
  rcases live.1 with ⟨old, stored⟩
  refine ⟨⟨old, ?_⟩, ?_⟩
  · rw [entry_at_release bound, Function.update_of_ne elsewhere, stored]
  · rw [generation_at_release bound, Function.update_of_ne elsewhere, live.2]

end Views

end Tyrne.ObjArena
