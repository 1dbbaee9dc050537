import Tyrne.CapTableRun

/-!
# Failed calls and full tables

A call that fails leaves the table as it was, in every slot and in the free list. An
insertion runs out of slots exactly if its other checks pass and every slot is in use,
so no call, failed or not, ever loses a slot.
-/

namespace Tyrne.CapTable

open Tyrne.Lib.Effect
open Tyrne.Lib.LinkedList
open Tyrne.Cap
open Tyrne.CapSpace

set_option autoImplicit false

/-- How many entries of the table are live. -/
def liveCount (table : CapabilityTable) : Nat := occupancy capTableCapacity (entryAt table)

/-- The operation inserts a capability, and all it checks before it takes a slot
passes. -/
def ChecksPass (table : CapabilityTable) : TableOp → Prop
  | .insertRoot _ => True
  | .capCopy src newRights => ∃ entry, Resolves table src entry ∧
      entry.capability.rights.contains .duplicate = true ∧
      entry.capability.rights.contains newRights = true
  | .capDerive src newRights _ => ∃ entry, Resolves table src entry ∧
      entry.capability.rights.contains .derive = true ∧
      entry.capability.rights.contains newRights = true ∧
      entry.depth + 1 ≤ maxDerivationDepth
  | .capRevoke _ => False
  | .capDrop _ => False
  | .capTake _ => False

def insertRoots : List Capability → TableM (List CapHandle)
  | [] => pure []
  | cap :: rest => do
      let handle ← insertRoot cap
      let handles ← insertRoots rest
      pure (handle :: handles)

section Calls

variable {build : Build} {table : CapabilityTable}

theorem WellFormed.full_iff (wellFormed : WellFormed table) :
    table.freeHead = none ↔ liveCount table = capTableCapacity :=
  free_list_empty wellFormed.free.list

theorem live_count_occupy {head : Index} (bound : head < capTableCapacity)
    (vacant : entryAt table head = none) (entry : SlotEntry) :
    liveCount (occupy table head entry) = liveCount table + 1 := by
  unfold liveCount
  rw [entry_at_occupy bound, occupancy_fill bound vacant]

theorem exhausted_of_full (full : table.freeHead = none) {op : TableOp}
    (checks : ChecksPass table op) : perform build op table = .err .capsExhausted table := by
  cases op with
  | insertRoot cap => simp [perform, insert_root_full full]
  | capCopy src newRights =>
      rcases checks with ⟨entry, resolves, mayCopy, narrowed⟩
      simp [perform, cap_copy_live resolves, mayCopy, narrowed, install_child_full full]
  | capDerive src newRights newObject =>
      rcases checks with ⟨entry, resolves, mayDerive, narrowed, shallow⟩
      simp [perform, cap_derive_live resolves, mayDerive, narrowed, Nat.not_lt.mpr shallow,
        install_child_full full]
  | capRevoke src => exact absurd checks id
  | capDrop handle => exact absurd checks id
  | capTake handle => exact absurd checks id

variable {after : CapabilityTable} (wellFormed : WellFormed table)
include wellFormed

theorem insert_root_exhausted {cap : Capability}
    (ran : insertRoot cap table = .err .capsExhausted after) : table.freeHead = none := by
  cases available : table.freeHead with
  | none => rfl
  | some head =>
      have bound := (wellFormed.free.head_vacant available).1
      rw [insert_root_run available bound] at ran
      cases ran

theorem cap_copy_exhausted {src : CapHandle} {newRights : CapRights}
    (ran : capCopy src newRights table = .err .capsExhausted after) :
    ChecksPass table (.capCopy src newRights) ∧ table.freeHead = none := by
  by_cases isLive : ∃ entry, Resolves table src entry
  · rcases isLive with ⟨entry, resolves⟩
    rw [cap_copy_live resolves] at ran
    by_cases mayCopy : entry.capability.rights.contains .duplicate = true
    · by_cases narrowed : entry.capability.rights.contains newRights = true
      · rcases install_copy_returns wellFormed resolves newRights with
          ⟨full, _⟩ | ⟨head, final, _, installed, _⟩
        · exact ⟨⟨entry, resolves, mayCopy, narrowed⟩, full⟩
        · simp [mayCopy, narrowed, installed] at ran
      · simp [mayCopy, narrowed] at ran
    · simp [mayCopy] at ran
  · have stale := not_exists.mp isLive
    simp [capCopy, entry_of_stale stale] at ran

theorem cap_derive_exhausted {src : CapHandle} {newRights : CapRights} {newObject : CapObject}
    (ran : capDerive src newRights newObject table = .err .capsExhausted after) :
    ChecksPass table (.capDerive src newRights newObject) ∧ table.freeHead = none := by
  by_cases isLive : ∃ entry, Resolves table src entry
  · rcases isLive with ⟨entry, resolves⟩
    rw [cap_derive_live resolves] at ran
    by_cases mayDerive : entry.capability.rights.contains .derive = true
    · by_cases narrowed : entry.capability.rights.contains newRights = true
      · by_cases deep : entry.depth + 1 > maxDerivationDepth
        · simp [mayDerive, narrowed, deep] at ran
        · rcases install_derived_returns wellFormed resolves ⟨newRights, newObject⟩
            (Nat.le_of_not_lt deep) with ⟨full, _⟩ | ⟨head, final, _, installed, _⟩
          · exact ⟨⟨entry, resolves, mayDerive, narrowed, by omega⟩, full⟩
          · simp [mayDerive, narrowed, deep, installed] at ran
      · simp [mayDerive, narrowed] at ran
    · simp [mayDerive] at ran
  · have stale := not_exists.mp isLive
    simp [capDerive, entry_of_stale stale] at ran

theorem removal_not_exhausted {handle : CapHandle} :
    capRevoke build handle table ≠ .err .capsExhausted after ∧
      capDrop handle table ≠ .err .capsExhausted after ∧
      capTake handle table ≠ .err .capsExhausted after := by
  by_cases isLive : ∃ entry, Resolves table handle entry
  · rcases isLive with ⟨entry, resolves⟩
    refine ⟨?_, ?_, ?_⟩
    · by_cases allowed : entry.capability.rights.contains .revoke = true
      · rcases cap_revoke_run wellFormed resolves allowed with ⟨cut, _, _, revoked⟩
        simp [revoked]
      · simp [cap_revoke_forbidden resolves build (Bool.eq_false_iff.mpr allowed)]
    · cases leaf : entry.firstChild with
      | none =>
          rcases leaf_removal_run wellFormed resolves leaf with ⟨unlinked, _, dropped, _⟩
          simp [dropped]
      | some child => simp [cap_drop_children resolves leaf]
    · cases leaf : entry.firstChild with
      | none =>
          rcases leaf_removal_run wellFormed resolves leaf with ⟨unlinked, _, _, taken⟩
          simp [taken]
      | some child => simp [cap_take_children resolves leaf]
  · have stale := resolve_handle_stale fun entry resolves => isLive ⟨entry, resolves⟩
    simp [capRevoke, capDrop, capTake, stale]

theorem exhausted_iff {op : TableOp} {result : Except CapError TableReply}
    (step : TableStep build table ⟨op, result⟩ after) :
    result = .error .capsExhausted ↔
      ChecksPass table op ∧ liveCount table = capTableCapacity := by
  rw [← wellFormed.full_iff]
  constructor
  · intro same
    subst same
    have inner : ∀ {Value : Type} {computation : TableM Value} {reply : Value → TableReply},
        (computation >>= fun value => pure (reply value)) table = .err .capsExhausted after →
        computation table = .err .capsExhausted after := by
      intro Value computation reply failed
      rw [bind_run] at failed
      cases ran : computation table with
      | ok value final => simp [ran] at failed
      | err error final => simpa [ran] using failed
      | fault reason => simp [ran] at failed
    cases op with
    | insertRoot cap => exact ⟨trivial, insert_root_exhausted wellFormed (inner step)⟩
    | capCopy src newRights => exact cap_copy_exhausted wellFormed (inner step)
    | capDerive src newRights newObject => exact cap_derive_exhausted wellFormed (inner step)
    | capRevoke src =>
        exact absurd (inner step) (removal_not_exhausted wellFormed).1
    | capDrop handle =>
        exact absurd (inner step) (@removal_not_exhausted build _ _ wellFormed handle).2.1
    | capTake handle =>
        exact absurd (inner step) (@removal_not_exhausted build _ _ wellFormed handle).2.2
  · rintro ⟨checks, full⟩
    have failed : TableStep build table ⟨op, .error .capsExhausted⟩ table :=
      exhausted_of_full full checks
    exact (step.unique failed).1

omit after in
theorem insert_roots_run (caps : List Capability)
    (room : caps.length + liveCount table ≤ capTableCapacity) :
    ∃ handles after, insertRoots caps table = .ok handles after ∧ WellFormed after ∧
      handles.length = caps.length ∧ liveCount after = caps.length + liveCount table := by
  induction caps generalizing table with
  | nil => exact ⟨[], table, rfl, wellFormed, rfl, by simp⟩
  | cons cap rest ih =>
      rw [List.length_cons] at room
      cases available : table.freeHead with
      | none =>
          have full := wellFormed.full_iff.mp available
          omega
      | some head =>
          rcases wellFormed.free.head_vacant available with ⟨bound, vacant⟩
          have filled := live_count_occupy bound vacant ⟨cap, none, none, none, 0⟩
          rcases ih (wellFormed.occupy_root available cap) (by omega) with
            ⟨handles, after, ran, kept, length, count⟩
          refine ⟨⟨head, generationAt table head⟩ :: handles, after, ?_, kept, ?_, ?_⟩
          · simp [insertRoots, insert_root_run available bound, ran]
          · simp [length]
          · rw [count, filled, List.length_cons]
            omega

end Calls

/-- On every table that calls can lead to from the empty one, every call returns; one
that fails leaves the whole table as it was; exhaustion is reported exactly by an
insertion that passes its other checks on a table with 64 live entries, which is when
`is_full` holds; and as many roots can be inserted as slots are not live. -/
theorem failed_calls_and_exhaustion (build : Build) (ops : List TableOp) :
    ∃ table, performAll build ops new = some table ∧
      (∀ op, ∃ result after, TableStep build table ⟨op, result⟩ after ∧
        (∀ error, result = .error error → after = table) ∧
        (result = .error .capsExhausted ↔ ChecksPass table op ∧ liveCount table = 64)) ∧
      (liveCount table = 64 ↔ isFull table = true) ∧
      ∀ caps : List Capability, caps.length = 64 - liveCount table →
        ∃ handles after, insertRoots caps table = .ok handles after ∧
          handles.length = caps.length ∧ liveCount after = 64 := by
  rcases perform_all_well_formed build ops new_well_formed with ⟨table, ran, wellFormed⟩
  refine ⟨table, ran, ?_, ?_, ?_⟩
  · intro op
    rcases perform_returns wellFormed op with ⟨result, after, returns⟩
    have step := (returns build).step
    exact ⟨result, after, step, (returns build).refused, exhausted_iff wellFormed step⟩
  · have full : table.freeHead = none ↔ liveCount table = 64 := wellFormed.full_iff
    rw [← full]
    simp [isFull]
  · intro caps length
    have bounded : liveCount table ≤ 64 := occupancy_le
    rcases insert_roots_run wellFormed caps (by simp only [capTableCapacity]; omega) with
      ⟨handles, after, inserted, _, many, count⟩
    exact ⟨handles, after, inserted, many, by omega⟩

end Tyrne.CapTable
