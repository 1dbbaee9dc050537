import Tyrne.Cap

/-!
# Capability table

`CapabilityTable` of `kernel/src/cap/table.rs`: one array of 64 slots through
which the free list and the derivation tree are threaded by index. Every function
below follows its namesake statement by statement. Indexing outside the array is
the fault the source's bounds check raises, and an early `Err` keeps the writes
made before it.
-/

namespace Tyrne.CapTable

open Tyrne.Lib.Effect
open Tyrne.Cap

set_option autoImplicit false

def capTableCapacity : Nat := 64

def maxDerivationDepth : Nat := 16

structure SlotEntry where
  capability : Capability
  parent : Option Index
  firstChild : Option Index
  nextSibling : Option Index
  depth : Nat
  deriving DecidableEq, Repr

structure Slot where
  entry : Option SlotEntry
  generation : Generation
  nextFree : Option Index
  deriving DecidableEq, Repr

structure CapabilityTable where
  slots : Vector Slot capTableCapacity
  freeHead : Option Index
  deriving DecidableEq, Repr

abbrev TableM : Type → Type := Eff Fault CapabilityTable CapError

def new : CapabilityTable where
  slots := Vector.ofFn fun i =>
    { entry := none
      generation := 0
      nextFree := if i.val + 1 < capTableCapacity then some (i.val + 1) else none }
  freeHead := some 0

/-- `self.slots[index]`, with the panic of an index out of range. -/
def slotAt (index : Index) : TableM Slot := do
  let table ← read
  match table.slots[index]? with
  | some slot => pure slot
  | none => abort .indexOutOfBounds

def writeSlot (table : CapabilityTable) (index : Index) (slot : Slot) : CapabilityTable :=
  { table with slots := table.slots.setIfInBounds index slot }

def setSlot (index : Index) (slot : Slot) : TableM Unit := do
  let table ← read
  write (writeSlot table index slot)

def setEntry (index : Index) (entry : Option SlotEntry) : TableM Unit := do
  let slot ← slotAt index
  setSlot index { slot with entry := entry }

/-- `if let Some(entry) = self.slots[index].entry.as_mut()` around an assignment. -/
def updateEntry (index : Index) (change : SlotEntry → SlotEntry) : TableM Unit := do
  let slot ← slotAt index
  setSlot index { slot with entry := slot.entry.map change }

/-! ## Internals -/

/-- Validate a handle and return the slot index. `slots.get` never panics. -/
def resolveHandle (handle : CapHandle) : TableM Index := do
  let table ← read
  match table.slots[handle.index]? with
  | none => fail .invalidHandle
  | some slot =>
      if slot.generation ≠ handle.generation then fail .invalidHandle
      else if slot.entry.isNone then fail .invalidHandle
      else pure handle.index

def entryOf (handle : CapHandle) : TableM SlotEntry := do
  let index ← resolveHandle handle
  let slot ← slotAt index
  match slot.entry with
  | some entry => pure entry
  | none => fail .invalidHandle

def popFree : TableM (Option Index) := do
  let table ← read
  match table.freeHead with
  | none => pure none
  | some head =>
      let slot ← slotAt head
      write { table with freeHead := slot.nextFree }
      setSlot head { slot with nextFree := none }
      pure (some head)

/-- `free_head` is written before the slot is looked up, so an index out of range
would still become the head. -/
def freeSlot (index : Index) : TableM Unit := do
  let table ← read
  let oldFreeHead := table.freeHead
  write { table with freeHead := some index }
  match table.slots[index]? with
  | none => pure ()
  | some slot =>
      setSlot index
        { entry := none, generation := slot.generation + 1, nextFree := oldFreeHead }

/-- The sibling walk of `unlink_from_siblings`. The source loops until the chain
ends; the count of remaining turns stands in for that, and running out of it is
the loop that never ends. -/
def walkSiblings (index : Index) (nextSibling : Option Index) :
    Nat → Option Index → TableM Unit
  | _, none => fail .invalidHandle
  | 0, some _ => abort .divergence
  | turns + 1, some cursor => do
      let slot ← slotAt cursor
      let cursorNext := slot.entry.bind SlotEntry.nextSibling
      if cursorNext = some index then
        updateEntry cursor fun entry => { entry with nextSibling := nextSibling }
      else walkSiblings index nextSibling turns cursorNext

def unlinkFromSiblings (index : Index) : TableM Unit := do
  let slot ← slotAt index
  match slot.entry with
  | none => fail .invalidHandle
  | some entry =>
      match entry.parent with
      | none => pure ()
      | some parent =>
          let parentSlot ← slotAt parent
          match parentSlot.entry with
          | none => fail .invalidHandle
          | some parentEntry =>
              if parentEntry.firstChild = some index then
                updateEntry parent fun above => { above with firstChild := entry.nextSibling }
              else
                walkSiblings index entry.nextSibling capTableCapacity parentEntry.firstChild

/-! ## Operations -/

def insertRoot (cap : Capability) : TableM CapHandle := do
  match ← popFree with
  | none => fail .capsExhausted
  | some index =>
      let slot ← slotAt index
      setEntry index (some
        { capability := cap, parent := none, firstChild := none, nextSibling := none, depth := 0 })
      pure { index := index, generation := slot.generation }

/-- The part `cap_copy` and `cap_derive` share after their checks: allocate a slot,
put it in front of the children of `parent`, if there is one. -/
def installChild (capability : Capability) (parent : Option Index) (depth : Nat) :
    TableM CapHandle := do
  match ← popFree with
  | none => fail .capsExhausted
  | some newIndex =>
      let newSlot ← slotAt newIndex
      let formerFirstChild ←
        match parent with
        | none => pure none
        | some parentIndex => do
            let parentSlot ← slotAt parentIndex
            match parentSlot.entry with
            | some parentEntry => pure parentEntry.firstChild
            | none => fail .invalidHandle
      setEntry newIndex (some
        { capability := capability, parent := parent, firstChild := none,
          nextSibling := formerFirstChild, depth := depth })
      match parent with
      | none => pure ()
      | some parentIndex =>
          updateEntry parentIndex fun above => { above with firstChild := some newIndex }
      pure { index := newIndex, generation := newSlot.generation }

def capCopy (src : CapHandle) (newRights : CapRights) : TableM CapHandle := do
  let entry ← entryOf src
  if !entry.capability.rights.contains .duplicate then fail .insufficientRights
  else if !entry.capability.rights.contains newRights then fail .widenedRights
  else installChild ⟨newRights, entry.capability.object⟩ entry.parent entry.depth

def capDerive (src : CapHandle) (newRights : CapRights) (newObject : CapObject) :
    TableM CapHandle := do
  let entry ← entryOf src
  if !entry.capability.rights.contains .derive then fail .insufficientRights
  else if !entry.capability.rights.contains newRights then fail .widenedRights
  else if entry.depth + 1 > maxDerivationDepth then fail .derivationTooDeep
  else installChild ⟨newRights, newObject⟩ (some src.index) (entry.depth + 1)

/-- Append a sibling chain to the scratch array. `room` is what is left of it,
`CAP_TABLE_CAPACITY - desc_len`; at zero the source asserts and then breaks. -/
def collectChain (build : Build) : Nat → Option Index → List Index → TableM (List Index)
  | _, none, collected => pure collected
  | 0, some _, collected => do
      debugAssert build false .derivationCycle
      pure collected
  | room + 1, some child, collected => do
      let slot ← slotAt child
      collectChain build room (slot.entry.bind SlotEntry.nextSibling) (collected ++ [child])

/-- The expansion loop `while scan < desc_len`. The scratch array holds at most
`CAP_TABLE_CAPACITY` indices, so that many turns always reach its end. -/
def expandDescendants (build : Build) : Nat → Nat → List Index → TableM (List Index)
  | 0, _, collected => pure collected
  | turns + 1, scan, collected =>
      match collected[scan]? with
      | none => pure collected
      | some index => do
          let slot ← slotAt index
          let extended ← collectChain build (capTableCapacity - collected.length)
            (slot.entry.bind SlotEntry.firstChild) collected
          expandDescendants build turns (scan + 1) extended

def freeSlots : List Index → TableM Unit
  | [] => pure ()
  | index :: rest => do
      freeSlot index
      freeSlots rest

def capRevoke (build : Build) (src : CapHandle) : TableM Unit := do
  let srcIndex ← resolveHandle src
  let slot ← slotAt srcIndex
  match slot.entry with
  | none => fail .invalidHandle
  | some entry =>
      if !entry.capability.rights.contains .revoke then fail .insufficientRights
      else
        let children ← collectChain build capTableCapacity entry.firstChild []
        let descendants ← expandDescendants build capTableCapacity 0 children
        freeSlots descendants
        updateEntry srcIndex fun above => { above with firstChild := none }

def capDrop (handle : CapHandle) : TableM Unit := do
  let index ← resolveHandle handle
  let slot ← slotAt index
  match slot.entry with
  | none => fail .invalidHandle
  | some entry =>
      if entry.firstChild.isSome then fail .hasChildren
      else
        unlinkFromSiblings index
        freeSlot index

/-- The entry is taken out of its slot before the slot is freed. -/
def capTake (handle : CapHandle) : TableM Capability := do
  let index ← resolveHandle handle
  let slot ← slotAt index
  match slot.entry with
  | none => fail .invalidHandle
  | some entry =>
      if entry.firstChild.isSome then fail .hasChildren
      else
        unlinkFromSiblings index
        let unlinked ← slotAt index
        setSlot index { unlinked with entry := none }
        match unlinked.entry with
        | none => fail .invalidHandle
        | some taken =>
            freeSlot index
            pure taken.capability

def isFull (table : CapabilityTable) : Bool := table.freeHead.isNone

def lookup (handle : CapHandle) : TableM Capability := do
  let entry ← entryOf handle
  pure entry.capability

def referencesObject (table : CapabilityTable) (target : CapObject) : Bool :=
  (table.slots.toList.filterMap Slot.entry).any fun entry =>
    entry.capability.object == target

end Tyrne.CapTable
