import Tyrne.ArenaHistory
import Tyrne.CapTableRemoval

/-!
# Two slot allocators

The capability table and the object arena each carry their own generation-tagged free list.
Without derivation a table is nothing more than an arena of capabilities: driven by the same
insertions and removals, `CapabilityTable` and `Arena<Capability, 64>` answer alike at every
step and keep the same generations and the same free list.
-/

namespace Tyrne.SlotAllocators

open Tyrne.Lib.Effect
open Tyrne.Lib.LinkedList
open Tyrne.Lib.Runs
open Tyrne.Cap
open Tyrne.CapSpace (TableOp TableReply)
open Tyrne.CapTable (CapabilityTable SlotEntry FreeOrder Resolves capTableCapacity)
open Tyrne.ObjArena (Arena ArenaOp)

set_option autoImplicit false

/-- `Arena<Capability, 64>`. -/
abbrev CapabilityArena : Type := Arena Capability capTableCapacity

/-- An insertion, or a removal of whatever this handle names, in either form the table has. -/
inductive SlotOp where
  | insert (cap : Capability)
  | drop (handle : CapHandle)
  | take (handle : CapHandle)

def slotId (handle : CapHandle) : SlotId := ⟨handle.index, handle.generation⟩

def SlotOp.tableOp : SlotOp → TableOp
  | .insert cap => .insertRoot cap
  | .drop handle => .capDrop handle
  | .take handle => .capTake handle

def SlotOp.arenaOp : SlotOp → ArenaOp Capability
  | .insert cap => .allocate cap
  | .drop handle => .free (slotId handle)
  | .take handle => .free (slotId handle)

abbrev TableResult : Type := Except CapError TableReply

abbrev ArenaReply : Type := Lib.Ledger.Reply SlotId Capability

/-- The two allocators gave the same answer: the same new handle or none, the removed
capability where both return it, and the refusal of a stale handle. -/
inductive SameAnswer : SlotOp → TableResult → ArenaReply → Prop where
  | inserted (cap : Capability) (handle : CapHandle) :
      SameAnswer (.insert cap) (.ok (.handle handle)) (.key (some (slotId handle)))
  | full (cap : Capability) : SameAnswer (.insert cap) (.error .capsExhausted) (.key none)
  | dropped (handle : CapHandle) (cap : Capability) :
      SameAnswer (.drop handle) (.ok .done) (.value (some cap))
  | dropRefused (handle : CapHandle) :
      SameAnswer (.drop handle) (.error .invalidHandle) (.value none)
  | taken (handle : CapHandle) (cap : Capability) :
      SameAnswer (.take handle) (.ok (.capability cap)) (.value (some cap))
  | takeRefused (handle : CapHandle) :
      SameAnswer (.take handle) (.error .invalidHandle) (.value none)

/-- Both allocators, side by side. -/
structure Allocators where
  table : CapabilityTable
  arena : CapabilityArena

def Allocators.fresh : Allocators := ⟨CapTable.new, ObjArena.new⟩

/-- One operation and what each side returned. -/
structure Driven where
  op : SlotOp
  result : TableResult
  reply : ArenaReply

def DriveStep (build : Build) (before : Allocators) (driven : Driven) (after : Allocators) : Prop :=
  CapTable.TableStep build before.table ⟨driven.op.tableOp, driven.result⟩ after.table ∧
    ObjArena.ArenaStep build before.arena ⟨driven.op.arenaOp, driven.reply⟩ after.arena

/-- What a caller can tell of both allocators is the same: what every handle resolves to, the
generation of every slot, and the free list in its order. -/
structure Agree (both : Allocators) : Prop where
  lookups : ∀ handle, CapTable.lookup handle both.table =
    match ObjArena.get both.arena (slotId handle) with
    | some cap => .ok cap both.table
    | none => .err .invalidHandle both.table
  generations : ∀ index,
    CapTable.generationAt both.table index = ObjArena.generationAt both.arena index
  freeOrder : ∃ chain, FreeOrder both.table chain ∧
    Chain (ObjArena.nextFreeAt both.arena) both.arena.freeHead chain

/-! ## The coupling -/

section Removal

variable {arena : CapabilityArena} {id : SlotId}

theorem free_step_stale (missing : ObjArena.get arena id = none) (build : Build) :
    ObjArena.ArenaStep build arena ⟨.free id, .value none⟩ arena := by
  have stale : ¬ ObjArena.Live arena id := by
    rw [← ObjArena.get_iff, missing]
    simp
  simp [ObjArena.ArenaStep, ObjArena.perform, ObjArena.free_stale stale]

theorem free_step_live {cap : Capability} (found : ObjArena.get arena id = some cap)
    (build : Build) : ObjArena.ArenaStep build arena ⟨.free id, .value (some cap)⟩
      (ObjArena.release arena id.index) := by
  rcases ObjArena.get_some found with ⟨dated, stored⟩
  simp [ObjArena.ArenaStep, ObjArena.perform, ObjArena.free_run stored dated]

end Removal

def rootEntry (cap : Capability) : SlotEntry := ⟨cap, none, none, none, 0⟩

/-- Slot by slot the table is the arena, each value wrapped as a childless root. -/
structure Coupled (both : Allocators) : Prop where
  tableWellFormed : CapTable.WellFormed both.table
  arenaWellFormed : ObjArena.WellFormed both.arena
  entries : CapTable.entryAt both.table =
    fun index => (ObjArena.entryAt both.arena index).map rootEntry
  generations : CapTable.generationAt both.table = ObjArena.generationAt both.arena
  links : CapTable.nextFreeAt both.table = ObjArena.nextFreeAt both.arena
  head : both.table.freeHead = both.arena.freeHead

theorem coupled_fresh : Coupled .fresh where
  tableWellFormed := CapTable.new_well_formed
  arenaWellFormed := ObjArena.new_well_formed
  entries := by
    funext index
    simp only [Allocators.fresh, ObjArena.entry_at_new, Option.map_none]
    by_cases bound : index < capTableCapacity
    · simp [CapTable.entryAt, CapTable.new, bound]
    · simp [CapTable.entryAt, Vector.getElem?_eq_none (Nat.le_of_not_lt bound)]
  generations := by
    funext index
    by_cases bound : index < capTableCapacity
    · simp [Allocators.fresh, CapTable.generationAt, ObjArena.generationAt, CapTable.new,
        ObjArena.new, bound]
    · simp [Allocators.fresh, CapTable.generationAt, ObjArena.generationAt,
        Vector.getElem?_eq_none (Nat.le_of_not_lt bound)]
  links := by
    funext index
    by_cases bound : index < capTableCapacity
    · simp [Allocators.fresh, CapTable.nextFreeAt, ObjArena.nextFreeAt, CapTable.new,
        ObjArena.new, bound]
    · simp [Allocators.fresh, CapTable.nextFreeAt, ObjArena.nextFreeAt,
        Vector.getElem?_eq_none (Nat.le_of_not_lt bound)]
  head := by decide

section Coupled

variable {both : Allocators} (coupled : Coupled both)
include coupled

theorem Coupled.resolves {handle : CapHandle} {cap : Capability}
    (found : ObjArena.get both.arena (slotId handle) = some cap) :
    Resolves both.table handle (rootEntry cap) := by
  rcases ObjArena.get_some found with ⟨dated, stored⟩
  constructor
  · rw [coupled.entries]
    exact congrArg (Option.map rootEntry) stored
  · rw [coupled.generations]
    exact dated

theorem Coupled.stale {handle : CapHandle}
    (missing : ObjArena.get both.arena (slotId handle) = none) (entry : SlotEntry) :
    ¬ Resolves both.table handle entry := by
  rintro ⟨live, dated⟩
  rw [coupled.entries] at live
  rw [coupled.generations] at dated
  rcases Option.map_eq_some_iff.mp live with ⟨cap, stored, _⟩
  rw [ObjArena.get_eq, slotId, if_pos dated] at missing
  cases missing.symm.trans stored

theorem Coupled.agree : Agree both where
  lookups := by
    intro handle
    cases found : ObjArena.get both.arena (slotId handle) with
    | none => exact CapTable.lookup_stale (coupled.stale found)
    | some cap => exact CapTable.lookup_live (coupled.resolves found)
  generations := congrFun coupled.generations
  freeOrder := by
    obtain ⟨chain, order, _⟩ := coupled.tableWellFormed.free_order
    refine ⟨chain, order, ?_⟩
    rw [← coupled.links, ← coupled.head]
    exact order.1

/-! ## One step of each -/

theorem Coupled.insert {head : Index} (available : both.arena.freeHead = some head)
    (cap : Capability) :
    Coupled ⟨CapTable.occupy both.table head (rootEntry cap), ObjArena.store both.arena head cap⟩ := by
  have bound := (coupled.arenaWellFormed.head_vacant available).1
  have tableAvailable := coupled.head.trans available
  constructor
  · exact coupled.tableWellFormed.occupy_root tableAvailable cap
  · exact coupled.arenaWellFormed.store available cap
  · funext index
    rw [CapTable.entry_at_occupy bound, ObjArena.entry_at_store bound, coupled.entries]
    by_cases same : index = head
    · simp [same]
    · simp [same]
  · rw [CapTable.generation_at_occupy bound, ObjArena.generation_at_store bound,
      coupled.generations]
  · rw [CapTable.next_free_at_occupy bound, ObjArena.next_free_at_store bound, coupled.links]
  · exact congrFun coupled.links head

theorem Coupled.remove {handle : CapHandle} {cap : Capability}
    (found : ObjArena.get both.arena (slotId handle) = some cap) :
    Coupled ⟨CapTable.vacate both.table handle.index,
      ObjArena.release both.arena handle.index⟩ := by
  have live := (coupled.resolves found).1
  have bound := CapTable.in_range_of_entry live
  constructor
  · exact CapTable.Unlinked.vacate_well_formed coupled.tableWellFormed live rfl (.root rfl)
  · exact coupled.arenaWellFormed.release (ObjArena.get_some found).2
  · funext index
    rw [CapTable.entry_at_vacate bound, ObjArena.entry_at_release bound, coupled.entries]
    by_cases same : index = handle.index
    · simp [same]
    · simp [same]
  · rw [CapTable.generation_at_vacate bound, ObjArena.generation_at_release bound,
      coupled.generations]
  · rw [CapTable.next_free_at_vacate bound, ObjArena.next_free_at_release bound, coupled.links,
      coupled.head]
  · rfl

theorem Coupled.insert_step (build : Build) (cap : Capability) :
    ∃ result reply after, DriveStep build both ⟨.insert cap, result, reply⟩ after ∧
      SameAnswer (.insert cap) result reply ∧ Coupled after := by
  cases available : both.arena.freeHead with
  | none =>
      have tableFull := coupled.head.trans available
      refine ⟨_, _, both, ⟨?_, ?_⟩, .full cap, coupled⟩
      · simp [CapTable.TableStep, SlotOp.tableOp, CapTable.perform,
          CapTable.insert_root_full tableFull, Outcome.Returned]
      · simp [ObjArena.ArenaStep, SlotOp.arenaOp, ObjArena.perform,
          ObjArena.allocate_full available]
  | some head =>
      have bound := (coupled.arenaWellFormed.head_vacant available).1
      have tableAvailable := coupled.head.trans available
      refine ⟨_, _, _, ⟨?_, ?_⟩,
        .inserted cap ⟨head, CapTable.generationAt both.table head⟩, coupled.insert available cap⟩
      · simp [CapTable.TableStep, SlotOp.tableOp, CapTable.perform,
          CapTable.insert_root_run tableAvailable bound, Outcome.Returned, rootEntry]
      · simp [ObjArena.ArenaStep, SlotOp.arenaOp, ObjArena.perform,
          ObjArena.allocate_run coupled.arenaWellFormed available, slotId, coupled.generations]

theorem Coupled.drop_step (build : Build) (handle : CapHandle) :
    ∃ result reply after, DriveStep build both ⟨.drop handle, result, reply⟩ after ∧
      SameAnswer (.drop handle) result reply ∧ Coupled after := by
  cases found : ObjArena.get both.arena (slotId handle) with
  | none =>
      have refused := CapTable.resolve_handle_stale (coupled.stale found)
      refine ⟨_, _, both, ⟨?_, free_step_stale found build⟩, .dropRefused handle, coupled⟩
      simp [CapTable.TableStep, SlotOp.tableOp, CapTable.perform, CapTable.capDrop, refused,
        Outcome.Returned]
  | some cap =>
      have resolves := coupled.resolves found
      have unlinks := CapTable.unlink_root_run resolves.1 rfl
      have dropped := CapTable.cap_drop_unlinked resolves unlinks rfl
      refine ⟨_, _, _, ⟨?_, ?_⟩, .dropped handle cap, coupled.remove found⟩
      · simp [CapTable.TableStep, SlotOp.tableOp, CapTable.perform, dropped, Outcome.Returned]
      · exact free_step_live found build

theorem Coupled.take_step (build : Build) (handle : CapHandle) :
    ∃ result reply after, DriveStep build both ⟨.take handle, result, reply⟩ after ∧
      SameAnswer (.take handle) result reply ∧ Coupled after := by
  cases found : ObjArena.get both.arena (slotId handle) with
  | none =>
      have refused := CapTable.resolve_handle_stale (coupled.stale found)
      refine ⟨_, _, both, ⟨?_, free_step_stale found build⟩, .takeRefused handle, coupled⟩
      simp [CapTable.TableStep, SlotOp.tableOp, CapTable.perform, CapTable.capTake, refused,
        Outcome.Returned]
  | some cap =>
      have resolves := coupled.resolves found
      have unlinks := CapTable.unlink_root_run resolves.1 rfl
      have taken := CapTable.cap_take_unlinked coupled.tableWellFormed resolves unlinks
        (.root rfl) rfl
      refine ⟨_, _, _, ⟨?_, ?_⟩, .taken handle cap, coupled.remove found⟩
      · simp [CapTable.TableStep, SlotOp.tableOp, CapTable.perform, taken, Outcome.Returned,
          rootEntry]
      · exact free_step_live found build

theorem Coupled.enabled (build : Build) (op : SlotOp) :
    ∃ result reply after, DriveStep build both ⟨op, result, reply⟩ after ∧
      SameAnswer op result reply ∧ Coupled after := by
  cases op with
  | insert cap => exact coupled.insert_step build cap
  | drop handle => exact coupled.drop_step build handle
  | take handle => exact coupled.take_step build handle

theorem Coupled.step {build : Build} {driven : Driven} {after : Allocators}
    (step : DriveStep build both driven after) :
    SameAnswer driven.op driven.result driven.reply ∧ Coupled after := by
  rcases coupled.enabled build driven.op with ⟨result, reply, reached, ⟨table, arena⟩, same, kept⟩
  rcases step.1.unique table with ⟨results, tables⟩
  have outcomes := step.2.symm.trans arena
  cases driven
  cases after
  cases reached
  cases results
  cases tables
  cases outcomes
  exact ⟨same, kept⟩

end Coupled

/-- For every sequence of insertions and removals, by whatever handles, both allocators return
from every call, in builds with and without debug assertions; and at every step of a run they
give the same answer and are left with the same handles, generations and free list. -/
theorem allocators_agree (build : Build) :
    (∀ ops, ∃ trace after, Run (DriveStep build) .fresh trace after ∧
      (labels trace).map Driven.op = ops) ∧
    ∀ trace after, Run (DriveStep build) .fresh trace after →
      Agree after ∧ ∀ taken ∈ trace, Agree taken.after ∧
        SameAnswer taken.label.op taken.label.result taken.label.reply := by
  constructor
  · intro ops
    apply run_of_inputs _ coupled_fresh
    intro before op coupled
    rcases coupled.enabled build op with ⟨result, reply, after, step, _, kept⟩
    exact ⟨⟨op, result, reply⟩, after, rfl, step, kept⟩
  · intro trace after run
    have coupled : ∀ trace after, Run (DriveStep build) .fresh trace after → Coupled after := by
      intro trace after run
      exact run_invariant coupled_fresh (fun _ _ _ earlier step => (earlier.step step).2) run
    constructor
    · exact (coupled trace after run).agree
    · intro taken member
      obtain ⟨front, early, step, _⟩ := run_member run member
      have stepped := (coupled _ _ early).step step
      exact ⟨stepped.2.agree, stepped.1⟩

end Tyrne.SlotAllocators
