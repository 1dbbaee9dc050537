import Mathlib.Logic.Function.Basic
import Tyrne.CapSpace
import Tyrne.CapTable

/-!
# What the table's functions do to a slot

Three updates of the array carry every operation: occupying a slot taken off the
free list, vacating a slot onto it, and changing the links of a live entry. The
module states what each does to the entries, generations and free links, and
rewrites the internals of the table into them.
-/

namespace Tyrne.CapTable

open Tyrne.Lib.Effect
open Tyrne.Cap
open Tyrne.CapSpace

set_option autoImplicit false

def entryAt (table : CapabilityTable) (index : Index) : Option SlotEntry :=
  table.slots[index]?.bind Slot.entry

def generationAt (table : CapabilityTable) (index : Index) : Generation :=
  (table.slots[index]?.map Slot.generation).getD 0

def nextFreeAt (table : CapabilityTable) (index : Index) : Option Index :=
  table.slots[index]?.bind Slot.nextFree

def heldOf (entry : SlotEntry) : Held := ⟨entry.capability, entry.parent, entry.depth⟩

/-- The table without the links that only serve its own bookkeeping. -/
def spaceOf (table : CapabilityTable) : Space where
  held := fun index => (entryAt table index).map heldOf
  generation := generationAt table

/-- Take `index` off the free list and store `entry` there. -/
def occupy (table : CapabilityTable) (index : Index) (entry : SlotEntry) : CapabilityTable :=
  writeSlot { table with freeHead := nextFreeAt table index } index
    { entry := some entry, generation := generationAt table index, nextFree := none }

/-- Clear `index`, advance its generation and put it in front of the free list. -/
def vacate (table : CapabilityTable) (index : Index) : CapabilityTable :=
  writeSlot { table with freeHead := some index } index
    { entry := none, generation := generationAt table index + 1, nextFree := table.freeHead }

/-- Change the entry of `index`, if it is live. -/
def relink (table : CapabilityTable) (index : Index) (change : SlotEntry → SlotEntry) :
    CapabilityTable :=
  writeSlot table index
    { entry := (entryAt table index).map change
      generation := generationAt table index
      nextFree := nextFreeAt table index }

variable {table : CapabilityTable} {index : Index}

/-! ## Views of a written slot -/

theorem slot_at_written (bound : index < capTableCapacity) (slot : Slot) (other : Index) :
    (writeSlot table index slot).slots[other]? =
      if other = index then some slot else table.slots[other]? := by
  by_cases same : other = index
  · subst same
    simp [writeSlot, bound]
  · simp [writeSlot, same, Vector.getElem?_setIfInBounds_ne (Ne.symm same)]

theorem entry_at_write (bound : index < capTableCapacity) (slot : Slot) :
    entryAt (writeSlot table index slot) =
      Function.update (entryAt table) index slot.entry := by
  funext other
  by_cases same : other = index
  · simp [entryAt, slot_at_written bound, same]
  · simp [entryAt, slot_at_written bound, same]

theorem generation_at_write (bound : index < capTableCapacity) (slot : Slot) :
    generationAt (writeSlot table index slot) =
      Function.update (generationAt table) index slot.generation := by
  funext other
  by_cases same : other = index
  · simp [generationAt, slot_at_written bound, same]
  · simp [generationAt, slot_at_written bound, same]

theorem next_free_at_write (bound : index < capTableCapacity) (slot : Slot) :
    nextFreeAt (writeSlot table index slot) =
      Function.update (nextFreeAt table) index slot.nextFree := by
  funext other
  by_cases same : other = index
  · simp [nextFreeAt, slot_at_written bound, same]
  · simp [nextFreeAt, slot_at_written bound, same]

section Views

variable (bound : index < capTableCapacity)
include bound

@[simp] theorem entry_at_occupy (entry : SlotEntry) :
    entryAt (occupy table index entry) =
      Function.update (entryAt table) index (some entry) :=
  entry_at_write bound _

@[simp] theorem next_free_at_occupy (entry : SlotEntry) :
    nextFreeAt (occupy table index entry) = Function.update (nextFreeAt table) index none :=
  next_free_at_write bound _

@[simp] theorem generation_at_occupy (entry : SlotEntry) :
    generationAt (occupy table index entry) = generationAt table := by
  apply (generation_at_write bound _).trans
  exact Function.update_eq_self index (generationAt table)

@[simp] theorem entry_at_vacate :
    entryAt (vacate table index) = Function.update (entryAt table) index none :=
  entry_at_write bound _

@[simp] theorem next_free_at_vacate :
    nextFreeAt (vacate table index) =
      Function.update (nextFreeAt table) index table.freeHead :=
  next_free_at_write bound _

@[simp] theorem generation_at_vacate :
    generationAt (vacate table index) =
      Function.update (generationAt table) index (generationAt table index + 1) :=
  generation_at_write bound _

@[simp] theorem entry_at_relink (change : SlotEntry → SlotEntry) :
    entryAt (relink table index change) =
      Function.update (entryAt table) index ((entryAt table index).map change) :=
  entry_at_write bound _

@[simp] theorem next_free_at_relink (change : SlotEntry → SlotEntry) :
    nextFreeAt (relink table index change) = nextFreeAt table := by
  apply (next_free_at_write bound _).trans
  exact Function.update_eq_self index (nextFreeAt table)

@[simp] theorem generation_at_relink (change : SlotEntry → SlotEntry) :
    generationAt (relink table index change) = generationAt table := by
  apply (generation_at_write bound _).trans
  exact Function.update_eq_self index (generationAt table)

end Views

/-! ## The space of a changed table -/

theorem space_occupy (bound : index < capTableCapacity) (entry : SlotEntry) :
    spaceOf (occupy table index entry) = (spaceOf table).place index (heldOf entry) := by
  apply Space.ext
  · funext other
    by_cases same : other = index
    · simp [spaceOf, Space.place, entry_at_occupy bound, same]
    · simp [spaceOf, Space.place, entry_at_occupy bound, same]
  · exact generation_at_occupy bound entry

/-- Links other than the parent's are invisible in the space. -/
theorem space_relink (bound : index < capTableCapacity) {change : SlotEntry → SlotEntry}
    (kept : ∀ entry, heldOf (change entry) = heldOf entry) :
    spaceOf (relink table index change) = spaceOf table := by
  apply Space.ext
  · funext other
    by_cases same : other = index
    · cases live : entryAt table index <;>
        simp [spaceOf, entry_at_relink bound, same, live, kept]
    · simp [spaceOf, entry_at_relink bound, same]
  · exact generation_at_relink bound change

theorem space_vacate (bound : index < capTableCapacity) :
    spaceOf (vacate table index) = (spaceOf table).clear {index} := by
  apply Space.ext
  · funext other
    by_cases same : other = index
    · simp [spaceOf, Space.clear, entry_at_vacate bound, same]
    · simp [spaceOf, Space.clear, entry_at_vacate bound, same]
  · funext other
    by_cases same : other = index
    · simp [spaceOf, Space.clear, generation_at_vacate bound, same]
    · simp [spaceOf, Space.clear, generation_at_vacate bound, same]

/-! ## The internals in these terms -/

theorem slot_in_range (bound : index < capTableCapacity) :
    table.slots[index]? = some
      { entry := entryAt table index
        generation := generationAt table index
        nextFree := nextFreeAt table index } := by
  simp [entryAt, generationAt, nextFreeAt, Vector.getElem?_eq_getElem bound]

theorem in_range_of_entry {entry : SlotEntry} (live : entryAt table index = some entry) :
    index < capTableCapacity := by
  by_contra outside
  simp [entryAt, Vector.getElem?_eq_none (Nat.le_of_not_lt outside)] at live

theorem slot_at_run (bound : index < capTableCapacity) :
    slotAt index table = .ok
      { entry := entryAt table index
        generation := generationAt table index
        nextFree := nextFreeAt table index } table := by
  simp [slotAt, slot_in_range bound]

theorem free_slot_run (bound : index < capTableCapacity) :
    freeSlot index table = .ok () (vacate table index) := by
  simp [freeSlot, slot_in_range bound, setSlot, vacate]

theorem update_entry_run (bound : index < capTableCapacity)
    (change : SlotEntry → SlotEntry) :
    updateEntry index change table = .ok () (relink table index change) := by
  simp [updateEntry, slot_at_run bound, setSlot, relink]

/-- A handle names a live entry: index in range, generations equal, slot used. -/
def Resolves (table : CapabilityTable) (handle : CapHandle) (entry : SlotEntry) : Prop :=
  entryAt table handle.index = some entry ∧ generationAt table handle.index = handle.generation

theorem resolve_handle_live {handle : CapHandle} {entry : SlotEntry}
    (resolves : Resolves table handle entry) :
    resolveHandle handle table = .ok handle.index table := by
  have bound := in_range_of_entry resolves.1
  simp [resolveHandle, slot_in_range bound, resolves.1, resolves.2]

theorem resolve_handle_stale {handle : CapHandle}
    (stale : ∀ entry, ¬ Resolves table handle entry) :
    resolveHandle handle table = .err .invalidHandle table := by
  by_cases bound : handle.index < capTableCapacity
  · cases live : entryAt table handle.index with
    | none => simp [resolveHandle, slot_in_range bound, live]
    | some entry =>
        have different : generationAt table handle.index ≠ handle.generation := fun same =>
          stale entry ⟨live, same⟩
        simp [resolveHandle, slot_in_range bound, different]
  · simp [resolveHandle, Vector.getElem?_eq_none (Nat.le_of_not_lt bound)]

theorem entry_of_live {handle : CapHandle} {entry : SlotEntry}
    (resolves : Resolves table handle entry) :
    entryOf handle table = .ok entry table := by
  have bound := in_range_of_entry resolves.1
  simp [entryOf, resolve_handle_live resolves, slot_at_run bound, resolves.1]

/-- Copying and deriving are the checks followed by the installation of a child. -/
theorem cap_copy_live {src : CapHandle} {entry : SlotEntry} (resolves : Resolves table src entry)
    (newRights : CapRights) :
    capCopy src newRights table =
      (if !entry.capability.rights.contains .duplicate then fail .insufficientRights
        else if !entry.capability.rights.contains newRights then fail .widenedRights
        else installChild ⟨newRights, entry.capability.object⟩ entry.parent entry.depth :
          TableM CapHandle) table := by
  simp only [capCopy, bind_run, entry_of_live resolves, and_then_ok]

theorem cap_derive_live {src : CapHandle} {entry : SlotEntry}
    (resolves : Resolves table src entry) (newRights : CapRights) (newObject : CapObject) :
    capDerive src newRights newObject table =
      (if !entry.capability.rights.contains .derive then fail .insufficientRights
        else if !entry.capability.rights.contains newRights then fail .widenedRights
        else if entry.depth + 1 > maxDerivationDepth then fail .derivationTooDeep
        else installChild ⟨newRights, newObject⟩ (some src.index) (entry.depth + 1) :
          TableM CapHandle) table := by
  simp only [capDerive, bind_run, entry_of_live resolves, and_then_ok]

theorem entry_of_stale {handle : CapHandle}
    (stale : ∀ entry, ¬ Resolves table handle entry) :
    entryOf handle table = .err .invalidHandle table := by
  simp [entryOf, resolve_handle_stale stale]

theorem lookup_live {handle : CapHandle} {entry : SlotEntry}
    (resolves : Resolves table handle entry) :
    lookup handle table = .ok entry.capability table := by
  simp [lookup, entry_of_live resolves]

theorem lookup_stale {handle : CapHandle}
    (stale : ∀ entry, ¬ Resolves table handle entry) :
    lookup handle table = .err .invalidHandle table := by
  simp [lookup, entry_of_stale stale]

theorem lookup_iff {handle : CapHandle} {capability : Capability} :
    lookup handle table = .ok capability table ↔
      ∃ entry, Resolves table handle entry ∧ entry.capability = capability := by
  by_cases live : ∃ entry, Resolves table handle entry
  · rcases live with ⟨entry, resolves⟩
    rw [lookup_live resolves]
    constructor
    · intro same
      cases same
      exact ⟨entry, resolves, rfl⟩
    · intro found
      rcases found with ⟨other, otherResolves, same⟩
      have equal := resolves.1.symm.trans otherResolves.1
      cases equal
      rw [same]
  · rw [lookup_stale fun entry resolves => live ⟨entry, resolves⟩]
    constructor
    · intro same
      cases same
    · intro found
      rcases found with ⟨entry, resolves, _⟩
      exact absurd ⟨entry, resolves⟩ live

/-! ## Insertions -/

theorem insert_root_full (full : table.freeHead = none) (cap : Capability) :
    insertRoot cap table = .err .capsExhausted table := by
  simp [insertRoot, popFree, full]

theorem write_slot_twice (slot other : Slot) :
    writeSlot (writeSlot table index slot) index other = writeSlot table index other := by
  simp [writeSlot]

def popped (table : CapabilityTable) (head : Index) : CapabilityTable :=
  writeSlot { table with freeHead := nextFreeAt table head } head
    { entry := entryAt table head, generation := generationAt table head, nextFree := none }

theorem pop_free_run {head : Index} (available : table.freeHead = some head)
    (bound : head < capTableCapacity) :
    popFree table = .ok (some head) (popped table head) := by
  simp [popFree, available, slot_at_run bound, setSlot, popped]

theorem entry_at_popped {head : Index} (bound : head < capTableCapacity) :
    entryAt (popped table head) = entryAt table := by
  apply (entry_at_write bound _).trans
  exact Function.update_eq_self head (entryAt table)

theorem generation_at_popped {head : Index} (bound : head < capTableCapacity) :
    generationAt (popped table head) = generationAt table := by
  apply (generation_at_write bound _).trans
  exact Function.update_eq_self head (generationAt table)

theorem set_entry_popped {head : Index} (bound : head < capTableCapacity)
    (entry : SlotEntry) :
    setEntry head (some entry) (popped table head) = .ok () (occupy table head entry) := by
  have free : nextFreeAt (popped table head) head = none := by
    simp [popped, next_free_at_write bound]
  simp only [setEntry, bind_run, slot_at_run bound, and_then_ok, setSlot, read_run,
    write_run, generation_at_popped bound, free]
  congr 1
  simp [popped, occupy, write_slot_twice]

theorem insert_root_run {head : Index} (available : table.freeHead = some head)
    (bound : head < capTableCapacity) (cap : Capability) :
    insertRoot cap table = .ok ⟨head, generationAt table head⟩
      (occupy table head ⟨cap, none, none, none, 0⟩) := by
  simp [insertRoot, pop_free_run available bound, slot_at_run bound,
    set_entry_popped bound, generation_at_popped bound]

theorem install_child_full (full : table.freeHead = none) (cap : Capability)
    (parent : Option Index) (depth : Nat) :
    installChild cap parent depth table = .err .capsExhausted table := by
  simp [installChild, popFree, full]

theorem install_child_root {head : Index} (available : table.freeHead = some head)
    (bound : head < capTableCapacity) (cap : Capability) (depth : Nat) :
    installChild cap none depth table = .ok ⟨head, generationAt table head⟩
      (occupy table head ⟨cap, none, none, none, depth⟩) := by
  simp [installChild, pop_free_run available bound, slot_at_run bound,
    set_entry_popped bound, generation_at_popped bound]

theorem install_child_run {head parent : Index} {above : SlotEntry}
    (available : table.freeHead = some head) (bound : head < capTableCapacity)
    (live : entryAt table parent = some above) (cap : Capability) (depth : Nat) :
    installChild cap (some parent) depth table = .ok ⟨head, generationAt table head⟩
      (relink (occupy table head ⟨cap, some parent, none, above.firstChild, depth⟩) parent
        fun entry => { entry with firstChild := some head }) := by
  have parentBound := in_range_of_entry live
  simp [installChild, pop_free_run available bound, slot_at_run bound,
    slot_at_run parentBound, set_entry_popped bound, generation_at_popped bound,
    entry_at_popped bound, live, update_entry_run parentBound]

end Tyrne.CapTable
