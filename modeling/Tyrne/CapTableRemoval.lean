import Tyrne.CapTableRun

/-!
# What a removal leaves of the table

Revocation frees the strict descendants of its source and nothing else; dropping and taking
free one childless slot. Everything a removal does not free keeps its capability, its place
in the tree and its generation, and the free list only grows at its front.
-/

namespace Tyrne.CapTable

open Tyrne.Lib.Effect
open Tyrne.Lib.LinkedList
open Tyrne.Lib.SiblingForest
open Tyrne.Cap
open Tyrne.CapSpace

set_option autoImplicit false

def FreeOrder (table : CapabilityTable) (chain : List Index) : Prop :=
  Chain (nextFreeAt table) table.freeHead chain ∧ chain.Nodup

def freeSlotCount (table : CapabilityTable) : Nat :=
  ((List.range capTableCapacity).filter fun index => (entryAt table index).isNone).length

/-- One or more parent links lead from `index` to `root`. -/
def Descendant (table : CapabilityTable) (root index : Index) : Prop :=
  Relation.TransGen (fun child parent => parentAt table child = some parent) index root

variable {table : CapabilityTable} {index : Index} {entry : SlotEntry}

theorem descendant_iff (root index : Index) :
    Descendant table root index ↔ Below (forest table) root index := by
  rw [Descendant, parent_at_forest, Below]

/-! ## The order of the free list -/

theorem WellFormed.free_order (wellFormed : WellFormed table) :
    ∃ chain, FreeOrder table chain ∧ ∀ index, index ∈ chain ↔ Vacant table index := by
  rcases wellFormed.free.list with ⟨chain, linked, distinct, members⟩
  exact ⟨chain, ⟨linked, distinct⟩, members⟩

theorem WellFormed.free_slot_count (wellFormed : WellFormed table) {chain : List Index}
    (order : FreeOrder table chain) : freeSlotCount table = chain.length := by
  rcases wellFormed.free_order with ⟨listed, ⟨linked, _⟩, members⟩
  cases chain_unique order.1 linked
  have distinct : ((List.range capTableCapacity).filter fun index =>
      (entryAt table index).isNone).Nodup := List.nodup_range.filter _
  apply List.Perm.length_eq
  apply (List.perm_ext_iff_of_nodup distinct order.2).mpr
  intro node
  rw [members node, List.mem_filter, List.mem_range, Option.isNone_iff_eq_none]
  rfl

theorem FreeOrder.vacate {chain : List Index} (order : FreeOrder table chain)
    (bound : index < capTableCapacity) (outside : index ∉ chain) :
    FreeOrder (vacate table index) (index :: chain) := by
  refine ⟨?_, List.nodup_cons.mpr ⟨outside, order.2⟩⟩
  rw [next_free_at_vacate bound]
  exact chain_push order.1 outside

theorem FreeOrder.relink {chain : List Index} (order : FreeOrder table chain)
    (bound : index < capTableCapacity) (change : SlotEntry → SlotEntry) :
    FreeOrder (relink table index change) chain := by
  rw [FreeOrder, next_free_at_relink bound]
  exact order

theorem FreeOrder.vacate_all {chain : List Index} (order : FreeOrder table chain)
    (cut : List Index) (distinct : cut.Nodup)
    (inRange : ∀ node ∈ cut, node < capTableCapacity) (outside : ∀ node ∈ cut, node ∉ chain) :
    FreeOrder (vacateAll table cut) (cut.reverse ++ chain) := by
  induction cut generalizing table chain with
  | nil => exact order
  | cons head rest ih =>
      rcases List.nodup_cons.mp distinct with ⟨headFresh, distinctRest⟩
      have pushed := order.vacate (inRange head (by simp)) (outside head (by simp))
      have apart : ∀ node ∈ rest, node ∉ head :: chain := by
        intro node member inChain
        rcases List.mem_cons.mp inChain with same | earlier
        · exact headFresh (same ▸ member)
        · exact outside node (by simp [member]) earlier
      have grown := ih pushed distinctRest (fun node member => inRange node (by simp [member])) apart
      rw [List.reverse_cons, List.append_assoc]
      exact grown

/-! ## Revocation -/

/-- What revoking what `root` holds leaves. -/
structure Revoked (table : CapabilityTable) (root : Index) (after : CapabilityTable) : Prop where
  freed : ∀ index, Descendant table root index →
    entryAt after index = none ∧ generationAt after index = generationAt table index + 1
  source : ∀ entry, entryAt table root = some entry →
    entryAt after root = some { entry with firstChild := none }
  kept : ∀ index, index ≠ root → ¬ Descendant table root index →
    entryAt after index = entryAt table index
  generations : ∀ index, ¬ Descendant table root index →
    generationAt after index = generationAt table index
  /-- The freed slots are put in front of the free list, each once. -/
  order : ∃ freed chain, freed.Nodup ∧
    (∀ index, index ∈ freed ↔ Descendant table root index) ∧
    FreeOrder table chain ∧ FreeOrder after (freed ++ chain) ∧
    freeSlotCount after = freeSlotCount table + freed.length

theorem revoked_of_pruned {cut : List Index} (wellFormed : WellFormed table)
    (members : ∀ node, node ∈ cut ↔ Below (forest table) index node) (distinct : cut.Nodup)
    (live : entryAt table index = some entry) : Revoked table index (pruned table index cut) := by
  have bound := in_range_of_entry live
  have inRange := descendants_in_range members
  have member_iff : ∀ node, node ∈ cut ↔ Descendant table index node :=
    fun node => (members node).trans (descendant_iff index node).symm
  have rootOutside : index ∉ cut := fun member =>
    wellFormed.linked.not_below_self index ((members index).mp member)
  constructor
  · intro node below
    have inside := (member_iff node).mpr below
    have different : node ≠ index := fun same => rootOutside (same ▸ inside)
    rw [pruned, entry_at_relink bound, Function.update_of_ne different,
      entry_at_vacate_all cut inRange, if_pos inside, generation_at_relink bound,
      generation_at_vacate_all cut distinct inRange, if_pos inside]
    exact ⟨rfl, rfl⟩
  · intro found foundLive
    rw [pruned, entry_at_relink bound, Function.update_self,
      entry_at_vacate_all cut inRange, if_neg rootOutside, foundLive]
    rfl
  · intro node different outside
    rw [pruned, entry_at_relink bound, Function.update_of_ne different,
      entry_at_vacate_all cut inRange, if_neg (mt (member_iff node).mp outside)]
  · intro node outside
    rw [pruned, generation_at_relink bound, generation_at_vacate_all cut distinct inRange,
      if_neg (mt (member_iff node).mp outside)]
  · rcases wellFormed.free_order with ⟨chain, order, vacant⟩
    have apart : ∀ node ∈ cut, node ∉ chain := by
      intro node member inChain
      rcases descendants_live members node member with ⟨found, nodeLive⟩
      rw [((vacant node).mp inChain).2] at nodeLive
      cases nodeLive
    have grown : FreeOrder (pruned table index cut) (cut.reverse ++ chain) :=
      (order.vacate_all cut distinct inRange apart).relink bound _
    have kept := pruned_well_formed members live distinct wellFormed
    refine ⟨cut.reverse, chain, List.nodup_reverse.mpr distinct, ?_, order, grown, ?_⟩
    · intro node
      rw [List.mem_reverse]
      exact member_iff node
    · rw [kept.free_slot_count grown, wellFormed.free_slot_count order, List.length_append, Nat.add_comm]

/-- Revoking a live handle with the right to succeeds on every table calls lead to, and
frees exactly the strict descendants. -/
theorem revoke_exact {build : Build} {ops : List TableOp} {table : CapabilityTable}
    (reached : performAll build ops new = some table) {src : CapHandle} {entry : SlotEntry}
    (resolves : Resolves table src entry)
    (allowed : entry.capability.rights.contains .revoke = true) :
    ∃ after, capRevoke build src table = .ok () after ∧ Revoked table src.index after := by
  have wellFormed := well_formed_of_calls reached
  rcases cap_revoke_run wellFormed resolves allowed with ⟨cut, distinct, members, ran⟩
  exact ⟨_, ran build, revoked_of_pruned wellFormed members distinct resolves.1⟩

def rootAndChildOps : List TableOp :=
  [.insertRoot ⟨⟨127⟩, .endpoint ⟨⟨3, 0⟩⟩⟩, .capDerive ⟨0, 0⟩ ⟨127⟩ (.endpoint ⟨⟨3, 0⟩⟩)]

def rootAndChild : CapabilityTable := (performAll ⟨true⟩ rootAndChildOps new).getD new

theorem revoke_exact_root_and_child :
    ∃ after, capRevoke ⟨true⟩ ⟨0, 0⟩ rootAndChild = .ok () after ∧ Revoked rootAndChild 0 after :=
  revoke_exact (show performAll ⟨true⟩ rootAndChildOps new = some rootAndChild by decide +kernel)
    (show Resolves rootAndChild ⟨0, 0⟩ ⟨⟨⟨127⟩, .endpoint ⟨⟨3, 0⟩⟩⟩, none, some 1, none, 0⟩ from
      ⟨by decide +kernel, by decide +kernel⟩) (by decide)

/-! ## Dropping and taking -/

section Leaf

variable {unlinked : CapabilityTable}

theorem Unlinked.free_links (step : Unlinked table index entry unlinked) :
    unlinked.freeHead = table.freeHead ∧ nextFreeAt unlinked = nextFreeAt table := by
  cases step with
  | root _ => exact ⟨rfl, rfl⟩
  | first _ parentLive _ => exact ⟨rfl, next_free_at_relink (in_range_of_entry parentLive) _⟩
  | later _ _ previousLive _ => exact ⟨rfl, next_free_at_relink (in_range_of_entry previousLive) _⟩

theorem WellFormed.leaf_iff (wellFormed : WellFormed table)
    (live : entryAt table index = some entry) :
    entry.firstChild = none ↔ ∀ child, parentAt table child ≠ some index := by
  constructor
  · intro leaf child
    rw [parent_at_forest]
    exact wellFormed.linked.no_child_of_leaf (forest_live live) leaf child
  · intro childless
    rcases wellFormed.kids live with ⟨kids, chain, _, members⟩
    cases first : entry.firstChild with
    | none => rfl
    | some child =>
        rw [first, chain_some] at chain
        rcases chain with ⟨rest, rfl, _⟩
        exact absurd ((members child).mp List.mem_cons_self) (childless child)

theorem lookup_congr {after : CapabilityTable} {handle : CapHandle}
    (held : (entryAt after handle.index).map heldOf = (entryAt table handle.index).map heldOf)
    (generation : generationAt after handle.index = generationAt table handle.index) :
    (lookup handle after).report? = (lookup handle table).report? := by
  by_cases live : ∃ entry, Resolves table handle entry
  · rcases live with ⟨entry, found, dated⟩
    rw [found] at held
    rcases Option.map_eq_some_iff.mp held with ⟨now, nowFound, same⟩
    have capability : now.capability = entry.capability := congrArg Held.capability same
    rw [lookup_live ⟨found, dated⟩, lookup_live ⟨nowFound, generation.trans dated⟩, capability]
    rfl
  · have stale := not_exists.mp live
    have staleAfter : ∀ entry, ¬ Resolves after handle entry := by
      rintro entry ⟨found, dated⟩
      rw [found] at held
      rcases Option.map_eq_some_iff.mp held.symm with ⟨before, beforeFound, _⟩
      exact stale before ⟨beforeFound, generation.symm.trans dated⟩
    rw [lookup_stale stale, lookup_stale staleAfter]
    rfl

/-- What removing the childless slot behind `handle` leaves. -/
structure LeafRemoved (table : CapabilityTable) (handle : CapHandle) (after : CapabilityTable) :
    Prop where
  freed : entryAt after handle.index = none ∧
    generationAt after handle.index = generationAt table handle.index + 1
  /-- The slot is the new head of the free list, which is otherwise as it was. -/
  front : after.freeHead = some handle.index ∧
    nextFreeAt after = Function.update (nextFreeAt table) handle.index table.freeHead
  lookups : ∀ other, other ≠ handle → (lookup other after).report? = (lookup other table).report?
  /-- Capability, parent, depth and generation of the other slots. -/
  others : ∀ other, other ≠ handle.index →
    (entryAt after other).map heldOf = (entryAt table other).map heldOf ∧
      generationAt after other = generationAt table other
  parentList : ∀ parent above kids, parentAt table handle.index = some parent →
    entryAt table parent = some above → Chain (nextSiblingAt table) above.firstChild kids →
    ∃ now, entryAt after parent = some now ∧
      Chain (nextSiblingAt after) now.firstChild (kids.filter (· ≠ handle.index))
  otherLists : ∀ parent above kids, parent ≠ handle.index →
    parentAt table handle.index ≠ some parent → entryAt table parent = some above →
    Chain (nextSiblingAt table) above.firstChild kids →
    ∃ now, entryAt after parent = some now ∧ Chain (nextSiblingAt after) now.firstChild kids

theorem Unlinked.child_list (wellFormed : WellFormed table)
    (live : entryAt table index = some entry) (step : Unlinked table index entry unlinked)
    {parent : Index} {above : SlotEntry} {kids : List Index} (different : parent ≠ index)
    (parentLive : entryAt table parent = some above)
    (chain : Chain (nextSiblingAt table) above.firstChild kids) :
    ∃ now, entryAt (vacate unlinked index) parent = some now ∧
      Chain (nextSiblingAt (vacate unlinked index)) now.firstChild (kids.filter (· ≠ index)) := by
  rcases wellFormed.linked.children (forest_live parentLive) with ⟨others, listed⟩
  rw [next_sibling_at_forest] at chain ⊢
  cases chain_unique chain listed.1
  rcases (step.without_leaf live).kept parent _ different (forest_live parentLive) with
    ⟨links, found, _, _, _, relinked⟩
  rcases forest_some found with ⟨now, nowLive, rfl⟩
  exact ⟨now, nowLive, relinked kids listed⟩

theorem removed_of_unlinked {handle : CapHandle} (wellFormed : WellFormed table)
    (resolves : Resolves table handle entry) (step : Unlinked table handle.index entry unlinked)
    (leaf : entry.firstChild = none) :
    LeafRemoved table handle (vacate unlinked handle.index) := by
  have live := resolves.1
  have bound := in_range_of_entry live
  rcases step.free_links with ⟨head, links⟩
  have space := step.vacate_space live
  have others : ∀ other, other ≠ handle.index →
      (entryAt (vacate unlinked handle.index) other).map heldOf =
          (entryAt table other).map heldOf ∧
        generationAt (vacate unlinked handle.index) other = generationAt table other := by
    intro other different
    have held := congrFun (congrArg Space.held space) other
    have generation := congrFun (congrArg Space.generation space) other
    simp only [Space.clear, Set.mem_singleton_iff, if_neg different] at held generation
    exact ⟨held, generation⟩
  have generation : generationAt unlinked = generationAt table :=
    congrArg Space.generation step.space
  have cleared : entryAt (vacate unlinked handle.index) handle.index = none := by
    rw [entry_at_vacate bound, Function.update_self]
  refine ⟨⟨cleared, ?_⟩, ⟨rfl, ?_⟩, ?_, others, ?_, ?_⟩
  · rw [generation_at_vacate bound, Function.update_self, generation]
  · rw [next_free_at_vacate bound, head, links]
  · intro other different
    by_cases same : other.index = handle.index
    · have elsewhere : generationAt table handle.index ≠ other.generation := by
        intro dated
        apply different
        cases other
        cases handle
        cases same
        rw [CapHandle.mk.injEq]
        exact ⟨rfl, dated.symm.trans resolves.2⟩
      have stale : ∀ entry, ¬ Resolves table other entry := by
        rintro found ⟨_, dated⟩
        exact elsewhere (same ▸ dated)
      have staleAfter : ∀ entry, ¬ Resolves (vacate unlinked handle.index) other entry := by
        rintro found ⟨otherLive, _⟩
        rw [same, cleared] at otherLive
        cases otherLive
      rw [lookup_stale stale, lookup_stale staleAfter]
      rfl
    · exact lookup_congr (others other.index same).1 (others other.index same).2
  · intro parent above kids up parentLive chain
    have different : parent ≠ handle.index := by
      rintro rfl
      exact (wellFormed.leaf_iff live).mp leaf handle.index up
    exact step.child_list wellFormed live different parentLive chain
  · intro parent above kids different notParent parentLive chain
    rcases wellFormed.kids parentLive with ⟨others, otherChain, _, members⟩
    cases chain_unique chain otherChain
    have outside : handle.index ∉ kids := fun member => notParent ((members _).mp member)
    have kept := step.child_list wellFormed live different parentLive chain
    rwa [children_without kids handle.index outside] at kept

end Leaf

/-- On every table calls lead to, dropping and taking a handle are refused alike or leave
the same table; they succeed exactly on a live handle without children, free its slot and
nothing else, and taking returns what a lookup did. -/
theorem leaf_removal_exact {build : Build} {ops : List TableOp} {table : CapabilityTable}
    (reached : performAll build ops new = some table) (handle : CapHandle) :
    ((∃ error, capDrop handle table = .err error table ∧ capTake handle table = .err error table) ∨
      ∃ after cap, capDrop handle table = .ok () after ∧ capTake handle table = .ok cap after ∧
        lookup handle table = .ok cap table ∧ LeafRemoved table handle after) ∧
    ((∃ after, capDrop handle table = .ok () after) ↔
      (∃ entry, Resolves table handle entry) ∧
        ∀ child, parentAt table child ≠ some handle.index) := by
  have wellFormed := well_formed_of_calls reached
  by_cases isLive : ∃ entry, Resolves table handle entry
  · rcases isLive with ⟨entry, resolves⟩
    cases first : entry.firstChild with
    | none =>
        rcases leaf_removal_run wellFormed resolves first with ⟨unlinked, step, dropped, taken⟩
        refine ⟨.inr ⟨_, _, dropped, taken, lookup_live resolves,
          removed_of_unlinked wellFormed resolves step first⟩, ?_⟩
        exact ⟨fun _ => ⟨⟨entry, resolves⟩, (wellFormed.leaf_iff resolves.1).mp first⟩,
          fun _ => ⟨_, dropped⟩⟩
    | some child =>
        have refused := cap_drop_children resolves first
        refine ⟨.inl ⟨.hasChildren, refused, cap_take_children resolves first⟩, ?_⟩
        constructor
        · rintro ⟨after, dropped⟩
          cases refused.symm.trans dropped
        · rintro ⟨_, childless⟩
          have leaf := (wellFormed.leaf_iff resolves.1).mpr childless
          cases first.symm.trans leaf
  · have stale := not_exists.mp isLive
    have refused : capDrop handle table = .err .invalidHandle table := by
      simp [capDrop, resolve_handle_stale stale]
    refine ⟨.inl ⟨.invalidHandle, refused, by simp [capTake, resolve_handle_stale stale]⟩, ?_⟩
    constructor
    · rintro ⟨after, dropped⟩
      cases refused.symm.trans dropped
    · rintro ⟨live, _⟩
      exact absurd live isLive

theorem leaf_removal_exact_child :
    ((∃ error, capDrop ⟨1, 0⟩ rootAndChild = .err error rootAndChild ∧
        capTake ⟨1, 0⟩ rootAndChild = .err error rootAndChild) ∨
      ∃ after cap, capDrop ⟨1, 0⟩ rootAndChild = .ok () after ∧
        capTake ⟨1, 0⟩ rootAndChild = .ok cap after ∧
        lookup ⟨1, 0⟩ rootAndChild = .ok cap rootAndChild ∧
        LeafRemoved rootAndChild ⟨1, 0⟩ after) ∧
    ((∃ after, capDrop ⟨1, 0⟩ rootAndChild = .ok () after) ↔
      (∃ entry, Resolves rootAndChild ⟨1, 0⟩ entry) ∧
        ∀ child, parentAt rootAndChild child ≠ some 1) :=
  leaf_removal_exact (show performAll ⟨true⟩ rootAndChildOps new = some rootAndChild by
    decide +kernel) ⟨1, 0⟩

end Tyrne.CapTable
