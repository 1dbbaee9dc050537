import Tyrne.Lib.Runs
import Tyrne.CapTableRevoke

/-!
# Runs of table operations

Every call on a well-formed table returns: it is either refused, leaving the table
as it was, or it does to the space what the operation is for, and the table stays
well formed. From that follows the representation invariant along every sequence
of calls from the empty table.
-/

namespace Tyrne.CapTable

open Tyrne.Lib.Effect
open Tyrne.Lib.LinkedList
open Tyrne.Lib.Runs
open Tyrne.Cap
open Tyrne.CapSpace
open Tyrne.Lib.SiblingForest (WellLinked Children nextOf parentOf)

set_option autoImplicit false

def perform (build : Build) : TableOp → TableM TableReply
  | .insertRoot cap => do
      let handle ← insertRoot cap
      pure (.handle handle)
  | .capCopy src newRights => do
      let handle ← capCopy src newRights
      pure (.handle handle)
  | .capDerive src newRights newObject => do
      let handle ← capDerive src newRights newObject
      pure (.handle handle)
  | .capRevoke src => do
      capRevoke build src
      pure .done
  | .capDrop handle => do
      capDrop handle
      pure .done
  | .capTake handle => do
      let capability ← capTake handle
      pure (.capability capability)

/-- The call returned this result and left this table. -/
def TableStep (build : Build) (table : CapabilityTable) (call : TableCall)
    (after : CapabilityTable) : Prop :=
  (perform build call.op table).Returned call.result after

instance (build : Build) (table : CapabilityTable) (call : TableCall)
    (after : CapabilityTable) : Decidable (TableStep build table call after) :=
  inferInstanceAs (Decidable ((perform build call.op table).Returned call.result after))

/-- The handle an operation acts on. -/
def subject : TableOp → Option CapHandle
  | .insertRoot _ => none
  | .capCopy src _ => some src
  | .capDerive src _ _ => some src
  | .capRevoke src => some src
  | .capDrop handle => some handle
  | .capTake handle => some handle

/-- All that is known of one call on a well-formed table. -/
structure Returns (build : Build) (table : CapabilityTable) (op : TableOp)
    (result : Except CapError TableReply) (after : CapabilityTable) : Prop where
  step : TableStep build table ⟨op, result⟩ after
  wellFormed : WellFormed after
  simulates : SpaceStep (spaceOf table) ⟨op, result⟩ (spaceOf after)
  refused : ∀ error, result = .error error → after = table
  stale : result = .error .invalidHandle ↔
    ∃ handle, subject op = some handle ∧ ∀ entry, ¬ Resolves table handle entry

theorem resolves_space {table : CapabilityTable} {handle : CapHandle} {entry : SlotEntry}
    (resolves : Resolves table handle entry) :
    (spaceOf table).Resolves handle (heldOf entry) :=
  ⟨space_live resolves.1, resolves.2⟩

section Calls

variable {build : Build} {table : CapabilityTable} (wellFormed : WellFormed table)
include wellFormed

theorem returns_refused {op : TableOp} {error : CapError}
    (ran : perform build op table = .err error table) (notStale : error ≠ .invalidHandle)
    (live : ∀ handle, subject op = some handle → ∃ entry, Resolves table handle entry) :
    Returns build table op (.error error) table where
  step := ran
  wellFormed := wellFormed
  simulates := .refused _ _ _
  refused := fun _ _ => rfl
  stale := by
    constructor
    · intro same
      cases same
      exact absurd rfl notStale
    · intro found
      rcases found with ⟨handle, acts, stale⟩
      rcases live handle acts with ⟨entry, resolves⟩
      exact absurd resolves (stale entry)

theorem returns_stale {op : TableOp} {handle : CapHandle}
    (ran : perform build op table = .err .invalidHandle table)
    (acts : subject op = some handle) (stale : ∀ entry, ¬ Resolves table handle entry) :
    Returns build table op (.error .invalidHandle) table where
  step := ran
  wellFormed := wellFormed
  simulates := .refused _ _ _
  refused := fun _ _ => rfl
  stale := ⟨fun _ => ⟨handle, acts, stale⟩, fun _ => rfl⟩

omit wellFormed in
theorem returns_done {op : TableOp} {reply : TableReply} {after : CapabilityTable}
    (ran : perform build op table = .ok reply after) (kept : WellFormed after)
    (simulates : SpaceStep (spaceOf table) ⟨op, .ok reply⟩ (spaceOf after))
    (live : ∀ handle, subject op = some handle → ∃ entry, Resolves table handle entry) :
    Returns build table op (.ok reply) after where
  step := ran
  wellFormed := kept
  simulates := simulates
  refused := fun _ same => by cases same
  stale := by
    constructor
    · intro same
      cases same
    · intro found
      rcases found with ⟨handle, acts, stale⟩
      rcases live handle acts with ⟨entry, resolves⟩
      exact absurd resolves (stale entry)

theorem insert_root_returns (cap : Capability) :
    ∃ result after, Returns build table (.insertRoot cap) result after := by
  have noSubject : ∀ handle, subject (.insertRoot cap) = some handle →
      ∃ entry, Resolves table handle entry := by
    intro handle acts
    cases acts
  cases available : table.freeHead with
  | none =>
      refine ⟨.error .capsExhausted, table,
        returns_refused wellFormed ?_ (by decide) noSubject⟩
      simp [perform, insert_root_full available cap]
  | some head =>
      rcases wellFormed.free.head_vacant available with ⟨bound, vacant⟩
      refine ⟨.ok (.handle ⟨head, generationAt table head⟩), _,
        returns_done ?_ (wellFormed.occupy_root available cap) ?_ noSubject⟩
      · simp [perform, insert_root_run available bound cap]
      · rw [space_occupy bound]
        exact .rooted cap (by simp [spaceOf, vacant])

/-- The outcome both copying and deriving share once their checks have passed: no slot is
left, or the child is placed in a vacant one. -/
def ChildPlaced (table : CapabilityTable) (cap : Capability) (parent : Option Index)
    (depth : Nat) : Prop :=
  (table.freeHead = none ∧ installChild cap parent depth table = .err .capsExhausted table) ∨
    ∃ head after, (spaceOf table).held head = none ∧
      installChild cap parent depth table = .ok ⟨head, generationAt table head⟩ after ∧
      WellFormed after ∧ spaceOf after = (spaceOf table).place head ⟨cap, parent, depth⟩

theorem install_child_returns (cap : Capability) (parent : Option Index) (depth : Nat)
    (top : parent = none → depth = 0)
    (nested : ∀ up, parent = some up →
      ∃ above, entryAt table up = some above ∧ depth = above.depth + 1)
    (shallow : depth ≤ maxDerivationDepth) : ChildPlaced table cap parent depth := by
  cases available : table.freeHead with
  | none => exact Or.inl ⟨available, install_child_full available cap parent depth⟩
  | some head =>
      rcases wellFormed.free.head_vacant available with ⟨bound, vacant⟩
      refine Or.inr ⟨head, ?_⟩
      cases parent with
      | none =>
          have zero := top rfl
          subst zero
          exact ⟨_, by simp [spaceOf, vacant], install_child_root available bound cap 0,
            wellFormed.occupy_root available cap, space_occupy bound _⟩
      | some up =>
          rcases nested up rfl with ⟨above, live, height⟩
          subst height
          exact ⟨_, by simp [spaceOf, vacant], install_child_run available bound live cap _,
            wellFormed.with_child available live shallow cap, space_with_child bound live cap⟩

section Children

variable {src : CapHandle} {entry : SlotEntry} (resolves : Resolves table src entry)
include resolves

theorem install_copy_returns (newRights : CapRights) :
    ChildPlaced table ⟨newRights, entry.capability.object⟩ entry.parent entry.depth := by
  apply install_child_returns wellFormed
  · intro top
    exact (wellFormed.linked.roots (forest_live resolves.1) top).2
  · intro up
    exact wellFormed.parent_live resolves.1
  · exact wellFormed.shallow resolves.1

theorem install_derived_returns (cap : Capability) (shallow : entry.depth + 1 ≤ maxDerivationDepth) :
    ChildPlaced table cap (some src.index) (entry.depth + 1) := by
  apply install_child_returns wellFormed
  · intro none
    cases none
  · intro up same
    cases same
    exact ⟨entry, resolves.1, rfl⟩
  · exact shallow

end Children

theorem cap_copy_returns (src : CapHandle) (newRights : CapRights) :
    ∃ result after, Returns build table (.capCopy src newRights) result after := by
  by_cases isLive : ∃ entry, Resolves table src entry
  · rcases isLive with ⟨entry, resolves⟩
    have live : ∀ handle, subject (.capCopy src newRights) = some handle →
        ∃ entry, Resolves table handle entry := by
      intro handle acts
      cases acts
      exact ⟨entry, resolves⟩
    have ran := cap_copy_live resolves newRights
    by_cases mayCopy : entry.capability.rights.contains .duplicate = true
    · by_cases narrowed : entry.capability.rights.contains newRights = true
      · rcases install_copy_returns wellFormed resolves newRights with
          ⟨_, installed⟩ | ⟨head, after, free, installed, kept, space⟩
        · refine ⟨.error .capsExhausted, table,
            returns_refused wellFormed ?_ (by decide) live⟩
          simp [perform, ran, mayCopy, narrowed, installed]
        · refine ⟨.ok (.handle ⟨head, generationAt table head⟩), after,
            returns_done ?_ kept ?_ live⟩
          · simp [perform, ran, mayCopy, narrowed, installed]
          · rw [space]
            exact SpaceStep.copied (resolves_space resolves) narrowed free
      · refine ⟨.error .widenedRights, table, returns_refused wellFormed ?_ (by decide) live⟩
        simp [perform, ran, mayCopy, narrowed]
    · refine ⟨.error .insufficientRights, table,
        returns_refused wellFormed ?_ (by decide) live⟩
      simp [perform, ran, mayCopy]
  · have stale := not_exists.mp isLive
    refine ⟨.error .invalidHandle, table, returns_stale wellFormed ?_ rfl stale⟩
    simp [perform, capCopy, entry_of_stale stale]

theorem cap_derive_returns (src : CapHandle) (newRights : CapRights)
    (newObject : CapObject) :
    ∃ result after, Returns build table (.capDerive src newRights newObject) result after := by
  by_cases isLive : ∃ entry, Resolves table src entry
  · rcases isLive with ⟨entry, resolves⟩
    have live : ∀ handle, subject (.capDerive src newRights newObject) = some handle →
        ∃ entry, Resolves table handle entry := by
      intro handle acts
      cases acts
      exact ⟨entry, resolves⟩
    have ran := cap_derive_live resolves newRights newObject
    by_cases mayDerive : entry.capability.rights.contains .derive = true
    · by_cases narrowed : entry.capability.rights.contains newRights = true
      · by_cases deep : entry.depth + 1 > maxDerivationDepth
        · refine ⟨.error .derivationTooDeep, table,
            returns_refused wellFormed ?_ (by decide) live⟩
          simp [perform, ran, mayDerive, narrowed, deep]
        · rcases install_derived_returns wellFormed resolves ⟨newRights, newObject⟩
            (Nat.le_of_not_lt deep) with ⟨_, installed⟩ | ⟨head, after, free, installed, kept, space⟩
          · refine ⟨.error .capsExhausted, table,
              returns_refused wellFormed ?_ (by decide) live⟩
            simp [perform, ran, mayDerive, narrowed, deep, installed]
          · refine ⟨.ok (.handle ⟨head, generationAt table head⟩), after,
              returns_done ?_ kept ?_ live⟩
            · simp [perform, ran, mayDerive, narrowed, deep, installed]
            · rw [space]
              exact SpaceStep.derived (resolves_space resolves) narrowed free
      · refine ⟨.error .widenedRights, table, returns_refused wellFormed ?_ (by decide) live⟩
        simp [perform, ran, mayDerive, narrowed]
    · refine ⟨.error .insufficientRights, table,
        returns_refused wellFormed ?_ (by decide) live⟩
      simp [perform, ran, mayDerive]
  · have stale := not_exists.mp isLive
    refine ⟨.error .invalidHandle, table, returns_stale wellFormed ?_ rfl stale⟩
    simp [perform, capDerive, entry_of_stale stale]

omit wellFormed in
theorem below_space (root node : Index) :
    (spaceOf table).Below root node ↔
      Lib.SiblingForest.Below (forest table) root node := by
  have same : (spaceOf table).ParentOf =
      fun child parent => parentOf (forest table) child = some parent := by
    funext child parent
    rw [parent_of_forest, Space.ParentOf]
    cases live : entryAt table child <;> simp [spaceOf, live, heldOf]
  rw [Space.Below, same, Lib.SiblingForest.Below]

/-- The cycle check of the collection loops is never reached, so a build with
`debug_assert!` and one without end alike. -/
theorem cap_revoke_returns (src : CapHandle) :
    ∃ result after, ∀ build, Returns build table (.capRevoke src) result after := by
  by_cases isLive : ∃ entry, Resolves table src entry
  · rcases isLive with ⟨entry, resolves⟩
    have live : ∀ handle, subject (.capRevoke src) = some handle →
        ∃ entry, Resolves table handle entry := by
      intro handle acts
      cases acts
      exact ⟨entry, resolves⟩
    by_cases allowed : entry.capability.rights.contains .revoke = true
    · rcases cap_revoke_run wellFormed resolves allowed with
        ⟨cut, distinct, members, revoked⟩
      refine ⟨.ok .done, pruned table src.index cut, fun build => returns_done ?_
        (pruned_well_formed members resolves.1 distinct wellFormed) ?_ live⟩
      · simp [perform, revoked build]
      · have descendants : { node | node ∈ cut } =
            { node | (spaceOf table).Below src.index node } := by
          apply Set.ext
          intro node
          exact (members node).trans (below_space src.index node).symm
        rw [space_pruned members resolves.1 distinct, descendants]
        exact .revoked (resolves_space resolves) allowed
    · refine ⟨.error .insufficientRights, table,
        fun build => returns_refused wellFormed ?_ (by decide) live⟩
      simp [perform, cap_revoke_forbidden resolves build (Bool.eq_false_iff.mpr allowed)]
  · have stale := not_exists.mp isLive
    refine ⟨.error .invalidHandle, table, fun build => returns_stale wellFormed ?_ rfl stale⟩
    simp [perform, capRevoke, resolve_handle_stale stale]

theorem leaf_space {index : Index} {entry : SlotEntry}
    (live : entryAt table index = some entry) (leaf : entry.firstChild = none)
    (child : Index) : ¬ (spaceOf table).ParentOf child index := by
  intro parent
  have below : (spaceOf table).Below index child := Relation.TransGen.single parent
  rw [below_space] at below
  rcases Relation.TransGen.head'_iff.mp below with ⟨up, link, above⟩
  rcases Relation.reflTransGen_iff_eq_or_transGen.mp above with same | further
  · exact wellFormed.linked.no_child_of_leaf (forest_live live) leaf child (same ▸ link)
  · rcases Relation.TransGen.tail'_iff.mp further with ⟨last, _, lastLink⟩
    exact wellFormed.linked.no_child_of_leaf (forest_live live) leaf last lastLink

theorem cap_drop_returns (handle : CapHandle) :
    ∃ result after, Returns build table (.capDrop handle) result after := by
  by_cases isLive : ∃ entry, Resolves table handle entry
  · rcases isLive with ⟨entry, resolves⟩
    have live : ∀ other, subject (.capDrop handle) = some other →
        ∃ entry, Resolves table other entry := by
      intro other acts
      cases acts
      exact ⟨entry, resolves⟩
    cases leaf : entry.firstChild with
    | none =>
        rcases leaf_removal_run wellFormed resolves leaf with ⟨unlinked, step, dropped, _⟩
        refine ⟨.ok .done, vacate unlinked handle.index, returns_done ?_
          (step.vacate_well_formed wellFormed resolves.1 leaf) ?_ live⟩
        · simp [perform, dropped]
        · rw [step.vacate_space resolves.1]
          exact .dropped (resolves_space resolves) (leaf_space wellFormed resolves.1 leaf)
    | some child =>
        refine ⟨.error .hasChildren, table, returns_refused wellFormed ?_ (by decide) live⟩
        simp [perform, cap_drop_children resolves leaf]
  · have stale := not_exists.mp isLive
    refine ⟨.error .invalidHandle, table, returns_stale wellFormed ?_ rfl stale⟩
    simp [perform, capDrop, resolve_handle_stale stale]

theorem cap_take_returns (handle : CapHandle) :
    ∃ result after, Returns build table (.capTake handle) result after := by
  by_cases isLive : ∃ entry, Resolves table handle entry
  · rcases isLive with ⟨entry, resolves⟩
    have live : ∀ other, subject (.capTake handle) = some other →
        ∃ entry, Resolves table other entry := by
      intro other acts
      cases acts
      exact ⟨entry, resolves⟩
    cases leaf : entry.firstChild with
    | none =>
        rcases leaf_removal_run wellFormed resolves leaf with ⟨unlinked, step, _, taken⟩
        refine ⟨.ok (.capability entry.capability), vacate unlinked handle.index, returns_done ?_
          (step.vacate_well_formed wellFormed resolves.1 leaf) ?_ live⟩
        · simp [perform, taken]
        · rw [step.vacate_space resolves.1]
          exact .taken (resolves_space resolves) (leaf_space wellFormed resolves.1 leaf)
    | some child =>
        refine ⟨.error .hasChildren, table, returns_refused wellFormed ?_ (by decide) live⟩
        simp [perform, cap_take_children resolves leaf]
  · have stale := not_exists.mp isLive
    refine ⟨.error .invalidHandle, table, returns_stale wellFormed ?_ rfl stale⟩
    simp [perform, capTake, resolve_handle_stale stale]

omit wellFormed in
theorem Returns.in_every_build {op : TableOp} {result : Except CapError TableReply}
    {after : CapabilityTable} (returns : Returns build table op result after)
    (notRevoke : ∀ src, op ≠ .capRevoke src) (other : Build) :
    Returns other table op result after := by
  have same : perform other op = perform build op := by
    cases op with
    | capRevoke src => exact absurd rfl (notRevoke src)
    | insertRoot _ => rfl
    | capCopy _ _ => rfl
    | capDerive _ _ _ => rfl
    | capDrop _ => rfl
    | capTake _ => rfl
  refine ⟨?_, returns.wellFormed, returns.simulates, returns.refused, returns.stale⟩
  have step := returns.step
  simp only [TableStep] at step ⊢
  rw [same]
  exact step

theorem perform_returns (op : TableOp) :
    ∃ result after, ∀ build, Returns build table op result after := by
  by_cases isRevoke : ∃ src, op = .capRevoke src
  · rcases isRevoke with ⟨src, rfl⟩
    exact cap_revoke_returns wellFormed src
  · have notRevoke : ∀ src, op ≠ .capRevoke src := fun src same => isRevoke ⟨src, same⟩
    have returned : ∃ result after, Returns ⟨true⟩ table op result after := by
      cases op with
      | insertRoot cap => exact insert_root_returns wellFormed cap
      | capCopy src newRights => exact cap_copy_returns wellFormed src newRights
      | capDerive src newRights newObject =>
          exact cap_derive_returns wellFormed src newRights newObject
      | capRevoke src => exact absurd rfl (notRevoke src)
      | capDrop handle => exact cap_drop_returns wellFormed handle
      | capTake handle => exact cap_take_returns wellFormed handle
    rcases returned with ⟨result, after, returns⟩
    exact ⟨result, after, fun build => returns.in_every_build notRevoke build⟩

end Calls

/-! ## The representation invariant along every sequence of calls -/

def parentAt (table : CapabilityTable) (index : Index) : Option Index :=
  (entryAt table index).bind SlotEntry.parent

def nextSiblingAt (table : CapabilityTable) (index : Index) : Option Index :=
  (entryAt table index).bind SlotEntry.nextSibling

/-- The invariant read off the array itself, one field a clause. -/
structure RepresentationInvariant (table : CapabilityTable) : Prop where
  freeChain : ∃ chain, Chain (nextFreeAt table) table.freeHead chain ∧ chain.Nodup ∧
    ∀ index, index ∈ chain ↔ index < capTableCapacity ∧ entryAt table index = none
  freeLinks : ∀ {index next}, nextFreeAt table index = some next → next < capTableCapacity
  treeLinks : ∀ {index entry link}, entryAt table index = some entry →
    entry.parent = some link ∨ entry.firstChild = some link ∨ entry.nextSibling = some link →
      link < capTableCapacity ∧ ∃ other, entryAt table link = some other
  childChains : ∀ {parent entry}, entryAt table parent = some entry →
    ∃ kids, Chain (nextSiblingAt table) entry.firstChild kids ∧ kids.Nodup ∧
      ∀ child, child ∈ kids ↔ parentAt table child = some parent
  roots : ∀ {index entry}, entryAt table index = some entry → entry.parent = none →
    entry.nextSibling = none ∧
      ∀ {parent above kids}, entryAt table parent = some above →
        Chain (nextSiblingAt table) above.firstChild kids → index ∉ kids
  acyclic : ∀ index, ¬ Relation.TransGen
    (fun child parent => parentAt table child = some parent) index index
  rootDepth : ∀ {index entry}, entryAt table index = some entry → entry.parent = none →
    entry.depth = 0
  childDepth : ∀ {index entry parent}, entryAt table index = some entry →
    entry.parent = some parent →
      ∃ above, entryAt table parent = some above ∧ entry.depth = above.depth + 1 ∧
        entry.depth ≤ maxDerivationDepth

section Representation

variable {table : CapabilityTable} {index : Index} {entry : SlotEntry}

theorem next_sibling_at_forest : nextSiblingAt table = nextOf (forest table) :=
  funext fun index => (next_of_forest index).symm

theorem parent_at_forest : parentAt table = parentOf (forest table) :=
  funext fun index => (parent_of_forest index).symm

theorem FreeLinked.links_in_range (free : FreeLinked table) {next : Index}
    (link : nextFreeAt table index = some next) : next < capTableCapacity := by
  rcases free.list with ⟨chain, linked, _, members⟩
  cases live : entryAt table index with
  | some entry =>
      rw [free.detached live] at link
      cases link
  | none =>
      have bound : index < capTableCapacity := by
        by_contra outside
        simp [nextFreeAt, Vector.getElem?_eq_none (Nat.le_of_not_lt outside)] at link
      have member := (members index).mpr ⟨bound, live⟩
      exact ((members next).mp (chain_successor_mem linked member link)).1

theorem WellFormed.kids (wellFormed : WellFormed table)
    (live : entryAt table index = some entry) :
    ∃ kids, Chain (nextSiblingAt table) entry.firstChild kids ∧ kids.Nodup ∧
      ∀ child, child ∈ kids ↔ parentAt table child = some index := by
  rw [next_sibling_at_forest, parent_at_forest]
  exact wellFormed.linked.children (forest_live live)

theorem WellFormed.link_live (wellFormed : WellFormed table) {link : Index}
    (live : entryAt table index = some entry)
    (linked : entry.parent = some link ∨ entry.firstChild = some link ∨
      entry.nextSibling = some link) :
    ∃ other, entryAt table link = some other := by
  have of_parent {up : Index} (listed : parentAt table link = some up) :
      ∃ other, entryAt table link = some other := by
    rw [parent_at_forest] at listed
    rcases live_of_parent listed with ⟨other, found, _⟩
    exact ⟨other, found⟩
  rcases linked with up | first | next
  · rcases wellFormed.parent_live live up with ⟨above, found, _⟩
    exact ⟨above, found⟩
  · rcases wellFormed.kids live with ⟨kids, chain, _, members⟩
    rw [first, chain_some] at chain
    rcases chain with ⟨rest, rfl, _⟩
    exact of_parent ((members link).mp (by simp))
  · cases up : entry.parent with
    | none =>
        have last := (wellFormed.linked.roots (forest_live live) up).1
        simp [linksOf, next] at last
    | some parent =>
        rcases wellFormed.parent_live live up with ⟨above, parentLive, _⟩
        rcases wellFormed.kids parentLive with ⟨kids, chain, _, members⟩
        have member : index ∈ kids := (members index).mpr (by simp [parentAt, live, up])
        have follows : nextSiblingAt table index = some link := by simp [nextSiblingAt, live, next]
        exact of_parent ((members link).mp (chain_successor_mem chain member follows))

theorem WellFormed.representation (wellFormed : WellFormed table) :
    RepresentationInvariant table where
  freeChain := wellFormed.free.list
  freeLinks := wellFormed.free.links_in_range
  treeLinks := by
    intro index entry link live linked
    rcases wellFormed.link_live live linked with ⟨other, found⟩
    exact ⟨in_range_of_entry found, other, found⟩
  childChains := wellFormed.kids
  roots := by
    intro index entry live top
    constructor
    · exact (wellFormed.linked.roots (forest_live live) top).1
    · intro parent above kids parentLive chain member
      rcases wellFormed.kids parentLive with ⟨others, otherChain, _, members⟩
      rw [chain_unique chain otherChain] at member
      have listed := (members index).mp member
      simp [parentAt, live, top] at listed
  acyclic := by
    intro index cycle
    rw [parent_at_forest] at cycle
    exact wellFormed.linked.not_below_self index cycle
  rootDepth := fun live top => (wellFormed.linked.roots (forest_live live) top).2
  childDepth := by
    intro index entry parent live up
    rcases wellFormed.parent_live live up with ⟨above, found, height⟩
    exact ⟨above, found, height, wellFormed.shallow live⟩

end Representation

def performAll (build : Build) : List TableOp → CapabilityTable → Option CapabilityTable
  | [], table => some table
  | op :: rest, table => (perform build op table).state?.bind (performAll build rest)

theorem perform_all_well_formed (build : Build) (ops : List TableOp) {table : CapabilityTable}
    (wellFormed : WellFormed table) :
    ∃ after, performAll build ops table = some after ∧ WellFormed after := by
  induction ops generalizing table with
  | nil => exact ⟨table, rfl, wellFormed⟩
  | cons op rest ih =>
      rcases perform_returns wellFormed op with ⟨result, middle, returns⟩
      rcases ih (returns build).wellFormed with ⟨after, ran, kept⟩
      refine ⟨after, ?_, kept⟩
      have state := Outcome.Returned.state (returns build).step
      simp only [performAll, state, Option.bind_some, ran]

theorem well_formed_of_calls {build : Build} {ops : List TableOp} {table : CapabilityTable}
    (reached : performAll build ops new = some table) : WellFormed table := by
  obtain ⟨after, ran, wellFormed⟩ := perform_all_well_formed build ops new_well_formed
  cases reached.symm.trans ran
  exact wellFormed

/-- Along every sequence of calls from the empty table the representation invariant
holds. Nothing then stops a call: it ends alike with and without `debug_assert!`, so
the cycle checks of the revocation loops are not reached; it reports
`InvalidHandle` only for the stale handle it was given, so none of the later exits
with that error is taken; and every live slot can be unlinked from its siblings. -/
theorem representation_invariant_of_calls (build : Build) (ops : List TableOp) :
    ∃ table, performAll build ops new = some table ∧ RepresentationInvariant table ∧
      (∀ op, ∃ result after, (∀ anyBuild, TableStep anyBuild table ⟨op, result⟩ after) ∧
        (result = .error .invalidHandle ↔
          ∃ handle, subject op = some handle ∧ ∀ entry, ¬ Resolves table handle entry)) ∧
      ∀ index entry, entryAt table index = some entry →
        ∃ unlinked, unlinkFromSiblings index table = .ok () unlinked := by
  rcases perform_all_well_formed build ops new_well_formed with ⟨table, ran, wellFormed⟩
  refine ⟨table, ran, wellFormed.representation, ?_, ?_⟩
  · intro op
    rcases perform_returns wellFormed op with ⟨result, after, returns⟩
    exact ⟨result, after, fun anyBuild => (returns anyBuild).step, (returns build).stale⟩
  · intro index entry live
    rcases wellFormed.unlink_run live with ⟨unlinked, done, _⟩
    exact ⟨unlinked, done⟩

end Tyrne.CapTable
