import Tyrne.CapTableInvariant

/-!
# Revocation frees exactly the strict descendants

`cap_revoke` collects the children of the source, then the children of everything
collected, into a scratch array of 64 cells, and frees what it collected. On a
well-formed table the scratch array never fills up, the collection is the set of
strict descendants, and cutting them away keeps the table well formed.
-/

namespace Tyrne.CapTable

open Tyrne.Lib.Effect
open Tyrne.Lib.LinkedList
open Tyrne.Lib.SiblingForest
open Tyrne.Cap
open Tyrne.CapSpace

set_option autoImplicit false

variable {table : CapabilityTable} {index : Index} {entry : SlotEntry}

/-- With enough room left the whole chain is appended. The induction is on the
chain, each node of which takes one cell. -/
theorem collect_chain_run (build : Build) (kids : List Index) (start : Option Index)
    (room : Nat) (collected : List Index) (enough : kids.length ≤ room)
    (chain : Chain (nextOf (forest table)) start kids)
    (inRange : ∀ kid ∈ kids, kid < capTableCapacity) :
    collectChain build room start collected table = .ok (collected ++ kids) table := by
  induction kids generalizing start room collected with
  | nil =>
      cases chain
      cases room <;> simp [collectChain]
  | cons kid rest ih =>
      rcases chain with ⟨rfl, tail⟩
      cases room with
      | zero => simp at enough
      | succ room =>
          have bound := inRange kid (by simp)
          rw [next_of_forest] at tail
          have later := ih _ room (collected ++ [kid]) (by simpa using enough) tail
            (fun other member => inRange other (by simp [member]))
          simp only [collectChain, bind_run, slot_at_run bound, and_then_ok]
          rw [later]
          simp

theorem sweep_in_range {root : Index} {scan : Nat} {collected : List Index}
    (sweep : Sweep (forest table) root scan collected) :
    ∀ node ∈ collected, node < capTableCapacity := by
  intro node member
  rcases below_occupied (sweep.sound node member) with ⟨links, occupied⟩
  rcases forest_some occupied with ⟨entry, live, _⟩
  exact in_range_of_entry live

/-- The expansion loop ends with every strict descendant collected once. The
scratch array is never longer than the number of slots, so `turns` is enough. -/
theorem WellFormed.expand_run (wellFormed : WellFormed table) {root : Index}
    (turns scan : Nat) (collected : List Index) (budget : turns + scan = capTableCapacity)
    (sweep : Sweep (forest table) root scan collected) :
    ∃ descendants, (∀ build, expandDescendants build turns scan collected table =
        .ok descendants table) ∧ descendants.Nodup ∧
      ∀ node, node ∈ descendants ↔ Below (forest table) root node := by
  induction turns generalizing scan collected with
  | zero =>
      have full := length_le_of_nodup sweep.distinct (sweep_in_range sweep)
      refine ⟨collected, fun _ => rfl, sweep.distinct, ?_⟩
      exact sweep.complete (by omega)
  | succ turns ih =>
      cases current : collected[scan]? with
      | none =>
          refine ⟨collected, by simp [expandDescendants, current], sweep.distinct, ?_⟩
          exact sweep.complete (List.getElem?_eq_none_iff.mp current)
      | some node =>
          have member := List.mem_of_getElem? current
          have bound := sweep_in_range sweep node member
          rcases below_occupied (sweep.sound node member) with ⟨links, occupied⟩
          rcases forest_some occupied with ⟨entry, live, same⟩
          rcases wellFormed.linked.children occupied with ⟨kids, listed⟩
          have next := sweep.step wellFormed.linked current listed
          have fits := length_le_of_nodup next.distinct (sweep_in_range next)
          rw [List.length_append] at fits
          have first : (entryAt table node).bind SlotEntry.firstChild = links.first := by
            rw [live, ← same]
            rfl
          have appended := fun build => collect_chain_run build kids links.first
            (capTableCapacity - collected.length) collected (by omega) listed.1
            (WellFormed.children_in_range listed)
          rcases ih (scan + 1) (collected ++ kids) (by omega) next with
            ⟨descendants, ran, distinct, members⟩
          refine ⟨descendants, ?_, distinct, members⟩
          intro build
          simp only [expandDescendants, current, bind_run, slot_at_run bound, and_then_ok, first]
          rw [appended build]
          exact ran build

/-! ## Freeing a list of slots -/

def vacateAll (table : CapabilityTable) (cut : List Index) : CapabilityTable :=
  cut.foldl vacate table

theorem free_slots_run (cut : List Index)
    (inRange : ∀ node ∈ cut, node < capTableCapacity) :
    freeSlots cut table = .ok () (vacateAll table cut) := by
  induction cut generalizing table with
  | nil => rfl
  | cons node rest ih =>
      have bound := inRange node (by simp)
      simp only [freeSlots, bind_run, free_slot_run bound, and_then_ok]
      exact ih fun other member => inRange other (by simp [member])

theorem entry_at_vacate_all (cut : List Index)
    (inRange : ∀ node ∈ cut, node < capTableCapacity) (node : Index) :
    entryAt (vacateAll table cut) node = if node ∈ cut then none else entryAt table node := by
  induction cut generalizing table with
  | nil => simp [vacateAll]
  | cons head rest ih =>
      have bound := inRange head (by simp)
      have later := @ih (vacate table head) fun other member => inRange other (by simp [member])
      rw [show vacateAll table (head :: rest) = vacateAll (vacate table head) rest from rfl, later,
        entry_at_vacate bound]
      by_cases same : node = head
      · simp [same]
      · simp [same]

theorem generation_at_vacate_all (cut : List Index) (distinct : cut.Nodup)
    (inRange : ∀ node ∈ cut, node < capTableCapacity) (node : Index) :
    generationAt (vacateAll table cut) node =
      if node ∈ cut then generationAt table node + 1 else generationAt table node := by
  induction cut generalizing table with
  | nil => simp [vacateAll]
  | cons head rest ih =>
      have bound := inRange head (by simp)
      rcases List.nodup_cons.mp distinct with ⟨outside, distinctRest⟩
      have later := @ih (vacate table head) distinctRest
        fun other member => inRange other (by simp [member])
      rw [show vacateAll table (head :: rest) = vacateAll (vacate table head) rest from rfl, later,
        generation_at_vacate bound]
      by_cases same : node = head
      · simp [same, outside]
      · simp [same]

theorem FreeLinked.vacate_all (free : FreeLinked table) (cut : List Index)
    (distinct : cut.Nodup) (live : ∀ node ∈ cut, ∃ entry, entryAt table node = some entry) :
    FreeLinked (vacateAll table cut) := by
  induction cut generalizing table with
  | nil => exact free
  | cons head rest ih =>
      rcases live head (by simp) with ⟨entry, headLive⟩
      rcases List.nodup_cons.mp distinct with ⟨outside, distinctRest⟩
      apply ih (free.vacate headLive) distinctRest
      intro node member
      rcases live node (by simp [member]) with ⟨other, nodeLive⟩
      refine ⟨other, ?_⟩
      have different : node ≠ head := fun same => outside (same ▸ member)
      rw [entry_at_vacate (in_range_of_entry headLive), Function.update_of_ne different, nodeLive]

/-! ## The whole operation -/

/-- The table after the listed slots were freed and `root` lost its children. -/
def pruned (table : CapabilityTable) (root : Index) (cut : List Index) : CapabilityTable :=
  relink (vacateAll table cut) root fun entry => { entry with firstChild := none }

section Pruning

variable {cut : List Index}
  (members : ∀ node, node ∈ cut ↔ Below (forest table) index node)
include members

theorem descendants_live : ∀ node ∈ cut, ∃ entry, entryAt table node = some entry := by
  intro node member
  rcases below_occupied ((members node).mp member) with ⟨links, occupied⟩
  rcases forest_some occupied with ⟨found, nodeLive, _⟩
  exact ⟨found, nodeLive⟩

theorem descendants_in_range : ∀ node ∈ cut, node < capTableCapacity := by
  intro node member
  rcases descendants_live members node member with ⟨found, nodeLive⟩
  exact in_range_of_entry nodeLive

variable (live : entryAt table index = some entry) (distinct : cut.Nodup)
include live

section Space

include distinct

theorem space_pruned : spaceOf (pruned table index cut) =
    (spaceOf table).clear { node | node ∈ cut } := by
  have inRange := descendants_in_range members
  have unlinked : spaceOf (pruned table index cut) = spaceOf (vacateAll table cut) :=
    space_relink (in_range_of_entry live) fun _ => rfl
  rw [unlinked]
  apply Space.ext
  · funext node
    by_cases inside : node ∈ cut
    · simp [spaceOf, Space.clear, inside, entry_at_vacate_all cut inRange]
    · simp [spaceOf, Space.clear, inside, entry_at_vacate_all cut inRange]
  · funext node
    simp [spaceOf, Space.clear, generation_at_vacate_all cut distinct inRange]

end Space

variable (wellFormed : WellFormed table)
include wellFormed

theorem root_survives : entryAt (vacateAll table cut) index = some entry := by
  have outside : index ∉ cut := fun member =>
    wellFormed.linked.not_below_self index ((members index).mp member)
  rw [entry_at_vacate_all cut (descendants_in_range members), if_neg outside, live]

theorem forest_pruned : forest (pruned table index cut) = prune (forest table) index cut := by
  have inRange := descendants_in_range members
  have outside : index ∉ cut := fun member =>
    wellFormed.linked.not_below_self index ((members index).mp member)
  rw [pruned, forest_relink (root_survives members live wellFormed)]
  funext node
  by_cases same : node = index
  · subst same
    simp [prune, outside, forest_live live, linksOf]
  · by_cases inside : node ∈ cut
    · simp [forest, prune, same, inside, entry_at_vacate_all cut inRange]
    · simp [forest, prune, same, inside, entry_at_vacate_all cut inRange]

include distinct

theorem pruned_well_formed : WellFormed (pruned table index cut) := by
  have bound := in_range_of_entry live
  refine ⟨?_, ?_, ?_⟩
  · apply FreeLinked.relink _ bound
    exact wellFormed.free.vacate_all cut distinct (descendants_live members)
  · rw [forest_pruned members live wellFormed]
    exact wellFormed.linked.prune_below members
  · intro node found nodeLive
    have held := space_live nodeLive
    rw [space_pruned members live distinct] at held
    by_cases inside : node ∈ cut
    · simp [Space.clear, inside] at held
    · simp only [Space.clear, Set.mem_ofPred_eq, if_neg inside] at held
      exact wellFormed.held_shallow held

end Pruning

theorem cap_revoke_forbidden {handle : CapHandle} (resolves : Resolves table handle entry)
    (build : Build) (missing : entry.capability.rights.contains .revoke = false) :
    capRevoke build handle table = .err .insufficientRights table := by
  have bound := in_range_of_entry resolves.1
  simp [capRevoke, resolve_handle_live resolves, slot_at_run bound, resolves.1, missing]

theorem cap_revoke_run {handle : CapHandle} (wellFormed : WellFormed table)
    (resolves : Resolves table handle entry)
    (allowed : entry.capability.rights.contains .revoke = true) :
    ∃ cut : List Index, cut.Nodup ∧
      (∀ node, node ∈ cut ↔ Below (forest table) handle.index node) ∧
      ∀ build, capRevoke build handle table = .ok () (pruned table handle.index cut) := by
  have live := resolves.1
  have bound := in_range_of_entry live
  rcases wellFormed.linked.children (forest_live live) with ⟨kids, listed⟩
  have kidsInRange := WellFormed.children_in_range listed
  have seeded := fun build => collect_chain_run build kids entry.firstChild capTableCapacity []
    (length_le_of_nodup listed.2.1 kidsInRange) listed.1 kidsInRange
  rcases wellFormed.expand_run capTableCapacity 0 kids (by omega) (sweep_start listed) with
    ⟨cut, expanded, distinct, members⟩
  refine ⟨cut, distinct, members, ?_⟩
  intro build
  have inRange := descendants_in_range members
  simp [capRevoke, resolve_handle_live resolves, slot_at_run bound, live, allowed, seeded,
    expanded, free_slots_run cut inRange, update_entry_run bound, pruned]

end Tyrne.CapTable
