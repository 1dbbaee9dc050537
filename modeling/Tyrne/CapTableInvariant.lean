import Tyrne.Lib.SiblingForest
import Tyrne.CapTableView

/-!
# The representation invariant of the capability table

The free list enumerates the vacant slots and the links of the live entries form
a forest of depth at most `maxDerivationDepth`. This module shows that occupying,
relinking and vacating a slot keep the invariant when the operations do so, and
gives each of insertion and leaf removal its exact outcome on a well-formed table.
-/

namespace Tyrne.CapTable

open Tyrne.Lib.Effect
open Tyrne.Lib.LinkedList
open Tyrne.Lib.SiblingForest
open Tyrne.Cap
open Tyrne.CapSpace

set_option autoImplicit false

def linksOf (entry : SlotEntry) : Links Index :=
  ⟨entry.parent, entry.firstChild, entry.nextSibling, entry.depth⟩

/-- The derivation tree as the links of the live entries draw it. -/
def forest (table : CapabilityTable) : Forest Index := fun index =>
  (entryAt table index).map linksOf

def Vacant (table : CapabilityTable) (index : Index) : Prop :=
  index < capTableCapacity ∧ entryAt table index = none

/-- The free list enumerates the vacant slots and no live slot is linked into it. -/
structure FreeLinked (table : CapabilityTable) : Prop where
  list : FreeList (nextFreeAt table) table.freeHead (Vacant table)
  detached : ∀ {index entry}, entryAt table index = some entry → nextFreeAt table index = none

structure WellFormed (table : CapabilityTable) : Prop where
  free : FreeLinked table
  linked : WellLinked (forest table)
  shallow : ∀ {index entry}, entryAt table index = some entry →
    entry.depth ≤ maxDerivationDepth

variable {table : CapabilityTable} {index : Index} {entry : SlotEntry}

theorem forest_live (live : entryAt table index = some entry) :
    forest table index = some (linksOf entry) := by
  simp [forest, live]

theorem forest_some {links : Links Index} (occupied : forest table index = some links) :
    ∃ entry, entryAt table index = some entry ∧ linksOf entry = links := by
  simpa [forest] using occupied

theorem forest_vacant (vacant : entryAt table index = none) : forest table index = none := by
  simp [forest, vacant]

theorem next_of_forest (index : Index) :
    nextOf (forest table) index = (entryAt table index).bind SlotEntry.nextSibling := by
  cases live : entryAt table index <;> simp [nextOf, forest, live, linksOf]

theorem parent_of_forest (index : Index) :
    parentOf (forest table) index = (entryAt table index).bind SlotEntry.parent := by
  cases live : entryAt table index <;> simp [parentOf, forest, live, linksOf]

theorem live_of_parent {child parent : Index}
    (link : parentOf (forest table) child = some parent) :
    ∃ entry, entryAt table child = some entry ∧ entry.parent = some parent := by
  rw [parent_of_forest] at link
  cases live : entryAt table child with
  | none => simp [live] at link
  | some entry => exact ⟨entry, rfl, by simpa [live] using link⟩

theorem WellFormed.parent_live (wellFormed : WellFormed table) {parent : Index}
    (live : entryAt table index = some entry) (up : entry.parent = some parent) :
    ∃ above, entryAt table parent = some above ∧ entry.depth = above.depth + 1 := by
  rcases wellFormed.linked.ranks (forest_live live) up with ⟨links, occupied, height⟩
  rcases forest_some occupied with ⟨above, aboveLive, same⟩
  subst same
  exact ⟨above, aboveLive, height⟩

/-! ## The empty table -/

theorem entry_at_new (index : Index) : entryAt new index = none := by
  by_cases bound : index < capTableCapacity
  · simp [entryAt, new, bound]
  · simp [entryAt, Vector.getElem?_eq_none (Nat.le_of_not_lt bound)]

theorem generation_at_new (index : Index) : generationAt new index = 0 := by
  by_cases bound : index < capTableCapacity
  · simp [generationAt, new, bound]
  · simp [generationAt, Vector.getElem?_eq_none (Nat.le_of_not_lt bound)]

theorem new_well_formed : WellFormed new := by
  have vacant : forest new = fun _ => none := funext fun index => forest_vacant (entry_at_new index)
  refine ⟨⟨?_, ?_⟩, ?_, ?_⟩
  · have upwards : ∀ cell < capTableCapacity, nextFreeAt new cell =
        if cell + 1 < capTableCapacity then some (cell + 1) else none := by
      intro cell bound
      simp [nextFreeAt, new, bound]
    apply free_list_congr (free_list_initial upwards)
    · intro _ _
      rfl
    · intro cell
      simp [Vacant, entry_at_new]
  · intro index entry live
    simp [entry_at_new] at live
  · constructor <;> intros <;> simp_all
  · intro index entry live
    simp [entry_at_new] at live

theorem space_live (live : entryAt table index = some entry) :
    (spaceOf table).held index = some (heldOf entry) := by
  simp [spaceOf, live]

theorem space_held {held : Held} (found : (spaceOf table).held index = some held) :
    ∃ entry, entryAt table index = some entry ∧ heldOf entry = held := by
  simpa [spaceOf] using found

theorem WellFormed.held_shallow (wellFormed : WellFormed table) {held : Held}
    (found : (spaceOf table).held index = some held) : held.depth ≤ maxDerivationDepth := by
  rcases space_held found with ⟨entry, live, same⟩
  subst same
  exact wellFormed.shallow live

/-! ## Occupying a slot -/

theorem FreeLinked.head_vacant (free : FreeLinked table) {head : Index}
    (available : table.freeHead = some head) : Vacant table head := by
  have list := free.list
  rw [available] at list
  exact free_list_head_free list

theorem FreeLinked.occupy (free : FreeLinked table) {head : Index}
    (available : table.freeHead = some head) (entry : SlotEntry) :
    FreeLinked (occupy table head entry) := by
  rcases free.head_vacant available with ⟨bound, vacant⟩
  have list := free.list
  rw [available] at list
  constructor
  · apply free_list_congr (free_list_pop list)
    · intro node _
      rw [next_free_at_occupy bound]
    · intro node
      simp only [Vacant, entry_at_occupy bound]
      by_cases same : node = head
      · simp [same]
      · simp [same]
  · intro other found live
    rw [entry_at_occupy bound] at live
    rw [next_free_at_occupy bound]
    by_cases same : other = head
    · rw [same, Function.update_self]
    · rw [Function.update_of_ne same] at live ⊢
      exact free.detached live

theorem FreeLinked.relink (free : FreeLinked table) (bound : index < capTableCapacity)
    (change : SlotEntry → SlotEntry) : FreeLinked (relink table index change) := by
  have sameVacant : ∀ node, entryAt (CapTable.relink table index change) node = none ↔
      entryAt table node = none := by
    intro node
    rw [entry_at_relink bound]
    by_cases same : node = index
    · simp [same]
    · simp [same]
  constructor
  · apply free_list_congr free.list
    · intro node _
      rw [next_free_at_relink bound]
    · intro node
      rw [Vacant, Vacant, sameVacant]
  · intro node found live
    rw [next_free_at_relink bound]
    cases before : entryAt table node with
    | none =>
        rw [(sameVacant node).mpr before] at live
        cases live
    | some old => exact free.detached before

theorem FreeLinked.vacate (free : FreeLinked table)
    (live : entryAt table index = some entry) : FreeLinked (vacate table index) := by
  have bound := in_range_of_entry live
  have used : ¬ Vacant table index := by
    intro vacant
    rw [vacant.2] at live
    cases live
  constructor
  · apply free_list_congr (free_list_push free.list used)
    · intro node _
      rw [next_free_at_vacate bound]
    · intro node
      simp only [Vacant, entry_at_vacate bound]
      by_cases same : node = index
      · simp [same, bound]
      · simp [same]
  · intro node found nodeLive
    rw [entry_at_vacate bound] at nodeLive
    rw [next_free_at_vacate bound]
    by_cases same : node = index
    · rw [same, Function.update_self] at nodeLive
      cases nodeLive
    · rw [Function.update_of_ne same] at nodeLive ⊢
      exact free.detached nodeLive

theorem forest_occupy (bound : index < capTableCapacity) (entry : SlotEntry) :
    forest (occupy table index entry) =
      Function.update (forest table) index (some (linksOf entry)) := by
  funext node
  by_cases same : node = index
  · simp [forest, entry_at_occupy bound, same]
  · simp [forest, entry_at_occupy bound, same]

theorem forest_relink (live : entryAt table index = some entry)
    (change : SlotEntry → SlotEntry) :
    forest (relink table index change) =
      Function.update (forest table) index (some (linksOf (change entry))) := by
  funext node
  by_cases same : node = index
  · simp [forest, entry_at_relink (in_range_of_entry live), same, live]
  · simp [forest, entry_at_relink (in_range_of_entry live), same]

theorem forest_vacate (bound : index < capTableCapacity) :
    forest (vacate table index) = Function.update (forest table) index none := by
  funext node
  by_cases same : node = index
  · simp [forest, entry_at_vacate bound, same]
  · simp [forest, entry_at_vacate bound, same]

theorem WellFormed.occupy_root (wellFormed : WellFormed table) {head : Index}
    (available : table.freeHead = some head) (cap : Capability) :
    WellFormed (occupy table head ⟨cap, none, none, none, 0⟩) := by
  rcases wellFormed.free.head_vacant available with ⟨bound, vacant⟩
  refine ⟨wellFormed.free.occupy available _, ?_, ?_⟩
  · rw [forest_occupy bound]
    exact wellFormed.linked.add_root (forest_vacant vacant)
  · intro other found live
    rw [entry_at_occupy bound] at live
    by_cases same : other = head
    · rw [same, Function.update_self] at live
      cases live
      exact Nat.zero_le _
    · rw [Function.update_of_ne same] at live
      exact wellFormed.shallow live

def withChild (table : CapabilityTable) (head parent : Index) (above : SlotEntry)
    (cap : Capability) : CapabilityTable :=
  relink (occupy table head ⟨cap, some parent, none, above.firstChild, above.depth + 1⟩) parent
    fun entry => { entry with firstChild := some head }

theorem WellFormed.with_child (wellFormed : WellFormed table) {head parent : Index}
    {above : SlotEntry} (available : table.freeHead = some head)
    (live : entryAt table parent = some above)
    (depthBound : above.depth + 1 ≤ maxDerivationDepth) (cap : Capability) :
    WellFormed (withChild table head parent above cap) := by
  rcases wellFormed.free.head_vacant available with ⟨bound, vacant⟩
  have different : parent ≠ head := by
    intro same
    rw [same, vacant] at live
    cases live
  have parentBound := in_range_of_entry live
  have stillLive : entryAt (occupy table head
      ⟨cap, some parent, none, above.firstChild, above.depth + 1⟩) parent = some above := by
    rw [entry_at_occupy bound, Function.update_of_ne different, live]
  refine ⟨(wellFormed.free.occupy available _).relink parentBound _, ?_, ?_⟩
  · rw [withChild, forest_relink stillLive, forest_occupy bound]
    exact wellFormed.linked.add_child (forest_live live) (forest_vacant vacant)
  · intro other found otherLive
    rw [withChild, entry_at_relink parentBound, entry_at_occupy bound] at otherLive
    by_cases atParent : other = parent
    · subst atParent
      rw [Function.update_self, Function.update_of_ne different, live] at otherLive
      cases otherLive
      have depthKept := wellFormed.shallow live
      exact depthKept
    · rw [Function.update_of_ne atParent] at otherLive
      by_cases atHead : other = head
      · rw [atHead, Function.update_self] at otherLive
        cases otherLive
        exact depthBound
      · rw [Function.update_of_ne atHead] at otherLive
        exact wellFormed.shallow otherLive

theorem space_with_child (bound : index < capTableCapacity) {parent : Index}
    {above : SlotEntry} (live : entryAt table parent = some above) (cap : Capability) :
    spaceOf (withChild table index parent above cap) =
      (spaceOf table).place index ⟨cap, some parent, above.depth + 1⟩ := by
  have linked : spaceOf (withChild table index parent above cap) = spaceOf (occupy table index
      ⟨cap, some parent, none, above.firstChild, above.depth + 1⟩) :=
    space_relink (in_range_of_entry live) fun _ => rfl
  rw [linked, space_occupy bound]
  rfl

/-! ## Removing a leaf -/

/-- What `unlink_from_siblings` makes of a table, by the place the entry has
among its siblings. -/
inductive Unlinked (table : CapabilityTable) (index : Index) (entry : SlotEntry) :
    CapabilityTable → Prop where
  | root (top : entry.parent = none) : Unlinked table index entry table
  | first {parent : Index} {above : SlotEntry} (up : entry.parent = some parent)
      (parentLive : entryAt table parent = some above)
      (heads : above.firstChild = some index) :
      Unlinked table index entry
        (relink table parent fun above => { above with firstChild := entry.nextSibling })
  | later {parent previous : Index} {above before : SlotEntry} {front back : List Index}
      (up : entry.parent = some parent) (parentLive : entryAt table parent = some above)
      (previousLive : entryAt table previous = some before)
      (listed : Children (forest table) above.firstChild parent
        (front ++ previous :: index :: back)) :
      Unlinked table index entry
        (relink table previous fun before => { before with nextSibling := entry.nextSibling })

/-- The walk stops at the sibling in front of `index`. The induction is on the
siblings still ahead of it, each of which costs one turn. -/
theorem walk_siblings_run (nextSibling : Option Index) {previous : Index}
    (front back : List Index) (cursor : Option Index) (turns : Nat)
    (enough : front.length < turns)
    (chain : Chain (nextOf (forest table)) cursor (front ++ previous :: index :: back))
    (distinct : (front ++ previous :: index :: back).Nodup)
    (inRange : ∀ node ∈ front ++ [previous], node < capTableCapacity) :
    walkSiblings index nextSibling turns cursor table = .ok ()
      (relink table previous fun entry => { entry with nextSibling := nextSibling }) := by
  induction front generalizing cursor turns with
  | nil =>
      rcases chain with ⟨rfl, tail⟩
      cases turns with
      | zero => simp at enough
      | succ turns =>
          have bound : previous < capTableCapacity := inRange previous (by simp)
          have found : (entryAt table previous).bind SlotEntry.nextSibling = some index := by
            rw [← next_of_forest]
            exact tail.1
          simp [walkSiblings, slot_at_run bound, found, update_entry_run bound]
  | cons head rest ih =>
      rcases chain with ⟨rfl, tail⟩
      cases turns with
      | zero => simp at enough
      | succ turns =>
          have bound : head < capTableCapacity := inRange head (by simp)
          have distinctRest := (List.nodup_cons.mp distinct).2
          have elsewhere : (entryAt table head).bind SlotEntry.nextSibling ≠ some index := by
            intro found
            rw [next_of_forest, found] at tail
            rcases (chain_some index _).mp tail with ⟨_, listed, _⟩
            cases rest with
            | nil =>
                cases listed
                simp at distinctRest
            | cons second others =>
                cases listed
                simp at distinctRest
          simp only [walkSiblings, bind_run, slot_at_run bound, and_then_ok]
          rw [if_neg elsewhere]
          apply ih _ _ (by simpa using enough)
          · rw [← next_of_forest]
            exact tail
          · exact distinctRest
          · intro node member
            apply inRange node
            simp only [List.cons_append, List.mem_cons]
            exact Or.inr member

theorem WellFormed.children_in_range {first : Option Index} {parent : Index}
    {kids : List Index} (listed : Children (forest table) first parent kids) :
    ∀ kid ∈ kids, kid < capTableCapacity := by
  intro kid member
  rcases live_of_parent ((listed.2.2 kid).mp member) with ⟨entry, live, _⟩
  exact in_range_of_entry live

theorem unlink_root_run (live : entryAt table index = some entry) (top : entry.parent = none) :
    unlinkFromSiblings index table = .ok () table := by
  simp [unlinkFromSiblings, slot_at_run (in_range_of_entry live), live, top]

theorem unlink_first_run (live : entryAt table index = some entry) {parent : Index}
    {above : SlotEntry} (up : entry.parent = some parent)
    (parentLive : entryAt table parent = some above) (heads : above.firstChild = some index) :
    unlinkFromSiblings index table = .ok ()
      (relink table parent fun above => { above with firstChild := entry.nextSibling }) := by
  have parentBound := in_range_of_entry parentLive
  simp [unlinkFromSiblings, slot_at_run (in_range_of_entry live), live, up,
    slot_at_run parentBound, parentLive, heads, update_entry_run parentBound]

theorem WellFormed.unlink_run (wellFormed : WellFormed table)
    (live : entryAt table index = some entry) :
    ∃ unlinked, unlinkFromSiblings index table = .ok () unlinked ∧
      Unlinked table index entry unlinked := by
  have bound := in_range_of_entry live
  cases up : entry.parent with
  | none => exact ⟨table, unlink_root_run live up, .root up⟩
  | some parent =>
      rcases wellFormed.parent_live live up with ⟨above, parentLive, _⟩
      have parentBound := in_range_of_entry parentLive
      rcases wellFormed.linked.children (forest_live parentLive) with ⟨kids, listed⟩
      have member : index ∈ kids := by
        apply (listed.2.2 index).mpr
        rw [parent_of_forest, live]
        exact up
      by_cases heads : above.firstChild = some index
      · exact ⟨_, unlink_first_run live up parentLive heads, .first up parentLive heads⟩
      · rcases chain_predecessor listed.1 member heads with ⟨front, previous, back, rfl⟩
        have previousMember : previous ∈ front ++ previous :: index :: back := by simp
        rcases live_of_parent ((listed.2.2 previous).mp previousMember) with
          ⟨before, previousLive, _⟩
        have inRange := WellFormed.children_in_range listed
        have short := length_le_of_nodup listed.2.1 inRange
        have walked := walk_siblings_run entry.nextSibling front back above.firstChild
          capTableCapacity (by simp at short; omega) listed.1 listed.2.1 (by
            intro node nodeMember
            apply inRange node
            simp at nodeMember ⊢
            tauto)
        refine ⟨_, ?_, .later up parentLive previousLive listed⟩
        simp only [unlinkFromSiblings, bind_run, slot_at_run bound, and_then_ok, live, up,
          slot_at_run parentBound, parentLive]
        rw [if_neg heads]
        exact walked

section Unlinking

variable {unlinked : CapabilityTable}

theorem Unlinked.space (step : Unlinked table index entry unlinked) :
    spaceOf unlinked = spaceOf table := by
  cases step with
  | root _ => rfl
  | first _ parentLive _ => exact space_relink (in_range_of_entry parentLive) fun _ => rfl
  | later _ _ previousLive _ => exact space_relink (in_range_of_entry previousLive) fun _ => rfl

theorem Unlinked.entry_at (wellFormed : WellFormed table)
    (live : entryAt table index = some entry) (leaf : entry.firstChild = none)
    (step : Unlinked table index entry unlinked) : entryAt unlinked index = some entry := by
  cases step with
  | root _ => exact live
  | @first parent above up parentLive heads =>
      have different : index ≠ parent := by
        intro same
        apply wellFormed.linked.no_child_of_leaf (forest_live live) leaf index
        rw [parent_of_forest, live]
        exact up.trans (congrArg some same.symm)
      rw [entry_at_relink (in_range_of_entry parentLive), Function.update_of_ne different, live]
  | @later parent previous above before front back up parentLive previousLive listed =>
      have different : index ≠ previous := by
        intro same
        subst same
        have distinct := listed.2.1
        simp [List.nodup_append] at distinct
      rw [entry_at_relink (in_range_of_entry previousLive), Function.update_of_ne different, live]

theorem Unlinked.free_linked (free : FreeLinked table)
    (step : Unlinked table index entry unlinked) : FreeLinked unlinked := by
  cases step with
  | root _ => exact free
  | first _ parentLive _ => exact free.relink (in_range_of_entry parentLive) _
  | later _ _ previousLive _ => exact free.relink (in_range_of_entry previousLive) _

theorem Unlinked.without_leaf (live : entryAt table index = some entry)
    (step : Unlinked table index entry unlinked) :
    WithoutLeaf (forest table) (forest (vacate unlinked index)) index := by
  rw [forest_vacate (in_range_of_entry live)]
  cases step with
  | root top => exact remove_root (forest_live live) top
  | first up parentLive heads =>
      rw [forest_relink parentLive]
      exact remove_first (forest_live live) up (forest_live parentLive) heads
  | later up parentLive previousLive listed =>
      rw [forest_relink previousLive]
      exact remove_later (forest_live live) (forest_live parentLive) (forest_live previousLive)
        listed

theorem Unlinked.vacate_well_formed (wellFormed : WellFormed table)
    (live : entryAt table index = some entry) (leaf : entry.firstChild = none)
    (step : Unlinked table index entry unlinked) : WellFormed (vacate unlinked index) := by
  have stillLive := step.entry_at wellFormed live leaf
  have bound := in_range_of_entry stillLive
  refine ⟨(step.free_linked wellFormed.free).vacate stillLive, ?_, ?_⟩
  · exact wellFormed.linked.without_leaf
      (wellFormed.linked.no_child_of_leaf (forest_live live) leaf) (step.without_leaf live)
  · intro other found otherLive
    rw [entry_at_vacate bound] at otherLive
    by_cases same : other = index
    · rw [same, Function.update_self] at otherLive
      cases otherLive
    · rw [Function.update_of_ne same] at otherLive
      have held := space_live otherLive
      rw [step.space] at held
      exact wellFormed.held_shallow held

theorem Unlinked.vacate_space (live : entryAt table index = some entry)
    (step : Unlinked table index entry unlinked) :
    spaceOf (vacate unlinked index) = (spaceOf table).clear {index} := by
  rw [space_vacate (in_range_of_entry live), step.space]

end Unlinking

section LeafRemoval

variable {handle : CapHandle} (wellFormed : WellFormed table)
  (resolves : Resolves table handle entry)
include resolves

theorem cap_drop_children {child : Index} (parent : entry.firstChild = some child) :
    capDrop handle table = .err .hasChildren table := by
  have bound := in_range_of_entry resolves.1
  simp [capDrop, resolve_handle_live resolves, slot_at_run bound, resolves.1, parent]

theorem cap_take_children {child : Index} (parent : entry.firstChild = some child) :
    capTake handle table = .err .hasChildren table := by
  have bound := in_range_of_entry resolves.1
  simp [capTake, resolve_handle_live resolves, slot_at_run bound, resolves.1, parent]

include wellFormed

section Unlinking

variable {unlinked : CapabilityTable}
  (ran : unlinkFromSiblings handle.index table = .ok () unlinked)
  (step : Unlinked table handle.index entry unlinked)
include ran step

omit wellFormed step in
theorem cap_drop_unlinked (leaf : entry.firstChild = none) :
    capDrop handle table = .ok () (vacate unlinked handle.index) := by
  have bound := in_range_of_entry resolves.1
  simp [capDrop, resolve_handle_live resolves, slot_at_run bound, resolves.1, leaf, ran,
    free_slot_run bound]

/-- Clearing the entry before the slot is freed is absorbed by the freeing. -/
theorem cap_take_unlinked (leaf : entry.firstChild = none) :
    capTake handle table = .ok entry.capability (vacate unlinked handle.index) := by
  have bound := in_range_of_entry resolves.1
  have stillLive := step.entry_at wellFormed resolves.1 leaf
  have absorbed : ∀ slot : Slot, slot.generation = generationAt unlinked handle.index →
      vacate (writeSlot unlinked handle.index slot) handle.index =
        vacate unlinked handle.index := by
    intro slot sameGeneration
    rw [vacate, generation_at_write bound, Function.update_self, sameGeneration]
    simp [vacate, writeSlot]
  simp [capTake, resolve_handle_live resolves, slot_at_run bound, resolves.1, leaf, ran,
    stillLive, free_slot_run bound, setSlot, absorbed]

end Unlinking

theorem leaf_removal_run (leaf : entry.firstChild = none) :
    ∃ unlinked, Unlinked table handle.index entry unlinked ∧
      capDrop handle table = .ok () (vacate unlinked handle.index) ∧
      capTake handle table = .ok entry.capability (vacate unlinked handle.index) := by
  rcases wellFormed.unlink_run resolves.1 with ⟨unlinked, ran, step⟩
  exact ⟨unlinked, step, cap_drop_unlinked resolves ran leaf,
    cap_take_unlinked wellFormed resolves ran step leaf⟩

end LeafRemoval

end Tyrne.CapTable
