import Tyrne.CapTableExhaustion
import Tyrne.Authority

/-!
# Objects that no table names

Before an object is destroyed its owner may ask every table whether it still names the
object. A capability in flight is in no table: it is parked at an endpoint until somebody
receives it. What the tables do not name they name again exactly if another endpoint
holds it parked.
-/

namespace Tyrne.CapTable

open Tyrne.Lib.Effect
open Tyrne.Lib.LinkedList
open Tyrne.Lib.Runs
open Tyrne.Cap
open Tyrne.CapSpace (Held Space TableOp)
open Tyrne.Ipc (insert_step)

set_option autoImplicit false

variable {table : CapabilityTable} {index : Index} {entry : SlotEntry}

theorem references_object_iff {object : CapObject} :
    referencesObject table object = true ↔
      ∃ index entry, entryAt table index = some entry ∧ entry.capability.object = object := by
  unfold referencesObject
  rw [List.any_eq_true]
  constructor
  · rintro ⟨entry, member, names⟩
    rcases List.mem_filterMap.mp member with ⟨slot, inTable, stored⟩
    rcases List.mem_iff_getElem?.mp inTable with ⟨index, there⟩
    have found : table.slots[index]? = some slot := by simpa using there
    exact ⟨index, entry, by simp [entryAt, found, stored], by simpa using names⟩
  · rintro ⟨index, entry, live, names⟩
    rcases Option.bind_eq_some_iff.mp live with ⟨slot, there, stored⟩
    have inTable : slot ∈ table.slots.toList := by
      apply List.mem_of_getElem? (i := index)
      simpa using there
    exact ⟨entry, List.mem_filterMap.mpr ⟨slot, inTable, stored⟩, by simpa using names⟩

/-! ## Emptying a table -/

theorem live_count_space : liveCount table = occupancy capTableCapacity (spaceOf table).held := by
  apply occupancy_congr
  intro cell _
  simp [spaceOf]

theorem WellFormed.first_child_live (wellFormed : WellFormed table) {child : Index}
    (live : entryAt table index = some entry) (first : entry.firstChild = some child) :
    ∃ below, entryAt table child = some below ∧ below.depth = entry.depth + 1 := by
  rcases wellFormed.kids live with ⟨kids, chain, _, members⟩
  rw [first, chain_some] at chain
  rcases chain with ⟨rest, rfl, _⟩
  have listed := (members child).mp (by simp)
  rw [parent_at_forest] at listed
  rcases live_of_parent listed with ⟨below, found, up⟩
  rcases wellFormed.parent_live found up with ⟨above, aboveLive, deeper⟩
  cases live.symm.trans aboveLive
  exact ⟨below, found, deeper⟩

/-- Where there is a live entry there is one without children: depths are bounded and a
child is one deeper. -/
theorem WellFormed.leaf_exists (wellFormed : WellFormed table)
    (live : entryAt table index = some entry) :
    ∃ leaf last, entryAt table leaf = some last ∧ last.firstChild = none := by
  induction room : maxDerivationDepth - entry.depth generalizing index entry with
  | zero =>
      refine ⟨index, entry, live, ?_⟩
      cases first : entry.firstChild with
      | none => rfl
      | some child =>
          rcases wellFormed.first_child_live live first with ⟨below, childLive, deeper⟩
          have shallow := wellFormed.shallow childLive
          omega
  | succ room ih =>
      cases first : entry.firstChild with
      | none => exact ⟨index, entry, live, first⟩
      | some child =>
          rcases wellFormed.first_child_live live first with ⟨below, childLive, deeper⟩
          exact ih childLive (by omega)

theorem drop_leaf (build : Build) (wellFormed : WellFormed table)
    (live : entryAt table index = some entry) (leaf : entry.firstChild = none) :
    ∃ after, TableStep build table ⟨.capDrop ⟨index, generationAt table index⟩, .ok .done⟩ after ∧
      liveCount after + 1 = liveCount table := by
  have resolves : Resolves table ⟨index, generationAt table index⟩ entry := ⟨live, rfl⟩
  rcases leaf_removal_run wellFormed resolves leaf with ⟨unlinked, _, dropped, _⟩
  have step : TableStep build table ⟨.capDrop ⟨index, generationAt table index⟩, .ok .done⟩
      (vacate unlinked index) := by
    simp [TableStep, Outcome.Returned, perform, dropped]
  refine ⟨_, step, ?_⟩
  have simulated := step.simulates wellFormed
  have cleared : (spaceOf (vacate unlinked index)).held =
      Function.update (spaceOf table).held index none := by
    generalize spaceOf (vacate unlinked index) = final at simulated
    cases simulated with
    | dropped _ _ => exact System.clear_held _ _
  rw [live_count_space, live_count_space, cleared]
  exact occupancy_clear (in_range_of_entry live) (space_live live)

theorem emptied (build : Build) (wellFormed : WellFormed table) :
    ∃ trace after, Run (TableStep build) table trace after ∧
      (∀ taken ∈ trace, ∃ handle, taken.label.op = .capDrop handle) ∧ liveCount after = 0 := by
  induction count : liveCount table generalizing table with
  | zero => exact ⟨[], table, .nil, by simp, count⟩
  | succ rest ih =>
      have occupied : ∃ index entry, entryAt table index = some entry := by
        have some : 0 < liveCount table := by omega
        rcases List.countP_pos_iff.mp some with ⟨index, _, isLive⟩
        exact ⟨index, Option.isSome_iff_exists.mp isLive⟩
      rcases occupied with ⟨index, entry, live⟩
      rcases wellFormed.leaf_exists live with ⟨leaf, last, leafLive, childless⟩
      rcases drop_leaf build wellFormed leafLive childless with ⟨next, step, fewer⟩
      rcases ih (step.well_formed wellFormed) (by omega) with ⟨trace, after, run, drops, none⟩
      refine ⟨_, after, run_append (.snoc .nil step) run, ?_, none⟩
      intro taken member
      rcases List.mem_append.mp member with first | later
      · cases List.mem_singleton.mp first
        exact ⟨_, rfl⟩
      · exact drops taken later

theorem room_for_root (build : Build) (wellFormed : WellFormed table) (cap : Capability) :
    ∃ trace after handle, Run (TableStep build) table trace after ∧
      (∀ taken ∈ trace, (∃ dropped, taken.label.op = .capDrop dropped) ∨
        taken.label.op = .insertRoot cap) ∧
      lookup handle after = .ok cap after ∧ isFull after = false := by
  rcases emptied build wellFormed with ⟨drops, bare, dropped, areDrops, bareCount⟩
  have kept := run_well_formed wellFormed dropped
  cases available : bare.freeHead with
  | none =>
      have full := kept.full_iff.mp available
      rw [bareCount] at full
      cases full
  | some head =>
      rcases kept.free.head_vacant available with ⟨bound, vacant⟩
      have inserted := insert_root_run available bound cap
      have step := insert_step inserted build
      refine ⟨_, _, _, .snoc dropped step, ?_, System.insert_lookup kept inserted, ?_⟩
      · intro taken member
        rcases List.mem_append.mp member with first | last
        · exact Or.inl (areDrops taken first)
        · cases List.mem_singleton.mp last
          exact Or.inr rfl
      · have one := live_count_occupy bound vacant ⟨cap, none, none, none, 0⟩
        rw [bareCount] at one
        rw [isFull, Option.isNone_eq_false_iff, Option.isSome_iff_ne_none]
        intro noHead
        have full := (step.well_formed kept).full_iff.mp noHead
        rw [one] at full
        cases full

end Tyrne.CapTable

namespace Tyrne.System

open Tyrne.Lib.Effect
open Tyrne.Lib.Runs
open Tyrne.Cap
open Tyrne.CapTable (CapabilityTable liveCount referencesObject)
open Tyrne.CapSpace (TableOp TableReply)
open Tyrne.ObjArena
open Tyrne.Ipc

set_option autoImplicit false

/-! ## Continuations -/

section Worlds

variable {Party : Type}

/-- The call is not one on the arena, and puts no new capability on the object into a
table. -/
def Sidesteps (object : CapObject) : SystemOp Party → Prop
  | .ipcSend _ _ _ _ => True
  | .ipcRecv _ _ => True
  | .createEndpoint _ => False
  | .destroyEndpoint _ => False
  | .table _ (.insertRoot cap) => cap.object ≠ object
  | .table _ (.capDerive _ _ newObject) => newObject ≠ object
  | .table _ (.capCopy _ _) => True
  | .table _ (.capRevoke _) => True
  | .table _ (.capDrop _) => True
  | .table _ (.capTake _) => True

/-- No table names the object. -/
def Unreferenced (world : World Party) (object : CapObject) : Prop :=
  ∀ party, referencesObject (world.tables party) object = false

/-- If a capability on the object is parked, then at the object itself. -/
def ParkedAtHome (world : World Party) (object : CapObject) : Prop :=
  ∀ ep cap, Live world.arena ep.slot → (stateAt world.queues ep).parked = some cap →
    cap.object = object → object = .endpoint ep

variable {world after : World Party} {object : CapObject}

theorem unreferenced_iff :
    Unreferenced world object ↔
      ∀ party handle cap, capabilityAt (world.tables party) handle = some cap →
        cap.object ≠ object := by
  constructor
  · intro unreferenced party handle cap found names
    rcases capability_at_iff.mp found with ⟨held, resolves, rfl⟩
    rcases CapTable.resolves_of_space resolves with ⟨entry, live, rfl⟩
    have referenced := CapTable.references_object_iff.mpr ⟨_, entry, live.1, names⟩
    rw [unreferenced party] at referenced
    cases referenced
  · intro nowhere party
    rw [Bool.eq_false_iff]
    intro referenced
    rcases CapTable.references_object_iff.mp referenced with ⟨index, entry, live, names⟩
    have resolves : CapTable.Resolves (world.tables party)
        ⟨index, CapTable.generationAt (world.tables party) index⟩ entry := ⟨live, rfl⟩
    exact nowhere party _ _ (capability_at_found (CapTable.lookup_live resolves)) names

theorem Unreferenced.endpoint_unnamed {ep : EndpointHandle}
    (unreferenced : Unreferenced world (.endpoint ep)) (party : Party) (epCap : CapHandle) :
    endpointAt (world.tables party) epCap ≠ some ep := by
  intro named
  unfold endpointAt at named
  split at named
  · next rights handle found =>
      cases named
      exact unreferenced_iff.mp unreferenced party epCap _ found rfl
  · cases named

variable [DecidableEq Party] {op : SystemOp Party} {result : Except SystemError SystemReply}

theorem WorldStep.same_arena (step : WorldStep world op result after)
    (sidesteps : Sidesteps object op) : after.arena = world.arena := by
  cases step with
  | sent step => exact step.touches.arena
  | received step => exact step.touches.arena
  | created available vacant => exact sidesteps.elim
  | arenaFull full => rfl
  | destroyed stored own => exact sidesteps.elim
  | stale dead => rfl
  | table returns => rfl

theorem WorldStep.still_parked (step : WorldStep world op result after) (sound : Sound world)
    (sidesteps : Sidesteps object op) (unreferenced : Unreferenced world object)
    (home : ParkedAtHome world object) {target : Place Party} {cap : Capability}
    (found : capabilityIn after target = some cap) (names : cap.object = object) :
    ∃ index, target = .parked index ∧ (stateIn world.queues index).parked = some cap := by
  have nowhere := unreferenced_iff.mp unreferenced
  cases step.arrival sound found with
  | rooted call =>
      cases call
      exact absurd names sidesteps
  | @inherited source above stems there narrowed object_or =>
      have above_names : above.object = object := by
        rcases object_or with same | ⟨party, src, newRights, isDerive, _⟩
        · exact same.trans names
        · have isOp : op = .table party (.capDerive src newRights cap.object) := isDerive
          subst isOp
          exact absurd names sidesteps
      cases stems with
      | kept same =>
          have unchanged : capabilityIn after target = capabilityIn world target := same
          rw [found] at unchanged
          cases target with
          | held party handle => exact absurd names (nowhere party handle cap unchanged.symm)
          | parked index => exact ⟨index, rfl, unchanged.symm⟩
      | copied call => exact absurd above_names (nowhere _ _ _ there)
      | derived call => exact absurd above_names (nowhere _ _ _ there)
      | sent call named live => exact absurd above_names (nowhere _ _ _ there)
      | @received party epCap fresh msg ep call named live =>
          -- the endpoint it comes from is the object itself, which nobody can name
          have parked : (stateAt world.queues ep).parked = some above := by
            rw [← parked_recorded sound.attended live]
            exact there
          have atHome := home ep above live parked above_names
          subst atHome
          exact absurd named (unreferenced.endpoint_unnamed party epCap)

/-- What only an unnamed endpoint could give out stays out of the tables. -/
theorem WorldStep.confined (step : WorldStep world op result after) (sound : Sound world)
    (soundAfter : Sound after) (sidesteps : Sidesteps object op)
    (unreferenced : Unreferenced world object) (home : ParkedAtHome world object) :
    Unreferenced after object ∧ ParkedAtHome after object := by
  constructor
  · rw [unreferenced_iff]
    intro party handle cap found names
    have held : capabilityIn after (.held party handle) = some cap := found
    rcases step.still_parked sound sidesteps unreferenced home held names with ⟨_, isParked, _⟩
    cases isParked
  · intro ep cap live parked names
    have there : capabilityIn after (.parked ep.slot.index) = some cap := by
      rw [← parked_recorded soundAfter.attended live] at parked
      exact parked
    rcases step.still_parked sound sidesteps unreferenced home there names with
      ⟨index, isParked, before⟩
    cases isParked
    rw [step.same_arena sidesteps] at live
    rw [parked_recorded sound.attended live] at before
    exact home ep cap live before names

omit [DecidableEq Party] in
theorem Sidesteps.guarded (sidesteps : Sidesteps object op) : Guarded world op := by
  intro handle isDestroy
  subst isDestroy
  exact sidesteps.elim

section Runs

variable {build : Build} {trace : SystemTrace Party}

theorem sound_of_sidesteps (sound : Sound world) (run : Run (SystemStep build) world trace after)
    (sidesteps : ∀ taken ∈ trace, Sidesteps object taken.label.op) : Sound after := by
  induction run with
  | nil => exact sound
  | @snoc earlier middle final label ran step ih =>
      have before := ih fun taken member => sidesteps taken (by simp [member])
      have allowed : Sidesteps object label.op := sidesteps ⟨middle, label, final⟩ (by simp)
      exact (step.world_step before).sound before allowed.guarded

theorem confined_of_run (sound : Sound world) (unreferenced : Unreferenced world object)
    (home : ParkedAtHome world object) (run : Run (SystemStep build) world trace after)
    (sidesteps : ∀ taken ∈ trace, Sidesteps object taken.label.op) :
    Unreferenced after object ∧ ParkedAtHome after object := by
  induction run with
  | nil => exact ⟨unreferenced, home⟩
  | @snoc earlier middle final label ran step ih =>
      have earlierSidesteps : ∀ taken ∈ earlier, Sidesteps object taken.label.op :=
        fun taken member => sidesteps taken (by simp [member])
      rcases ih earlierSidesteps with ⟨nowhere, atHome⟩
      have before := sound_of_sidesteps sound ran earlierSidesteps
      have kept := sound_of_sidesteps sound (.snoc ran step) sidesteps
      have allowed : Sidesteps object label.op := sidesteps ⟨middle, label, final⟩ (by simp)
      exact (step.world_step before).confined before kept allowed nowhere atHome

/-! ## Getting a parked capability back -/

theorem table_step_lifts {party : Party} {inner : TableOp}
    {reported : Except CapError TableReply} {table : CapabilityTable}
    (step : CapTable.TableStep build (world.tables party) ⟨inner, reported⟩ table) :
    SystemStep build world ⟨.table party inner, liftResult .cap .table reported⟩
      { world with tables := Function.update world.tables party table } :=
  lift_returned step

theorem table_run_lifts {party : Party} {calls : CapTable.TableTrace} {table : CapabilityTable}
    (run : Run (CapTable.TableStep build) (world.tables party) calls table) :
    ∃ lifted, Run (SystemStep build) world lifted
        { world with tables := Function.update world.tables party table } ∧
      ∀ taken ∈ lifted, ∃ call ∈ calls, taken.label.op = .table party call.label.op := by
  induction run with
  | nil =>
      refine ⟨[], ?_, by simp⟩
      rw [Function.update_eq_self]
      exact .nil
  | @snoc earlier middle final label ran step ih =>
      rcases ih with ⟨lifted, before, listed⟩
      have here : SystemStep build
          { world with tables := Function.update world.tables party middle }
          ⟨.table party label.op, liftResult .cap .table label.result⟩
          { world with tables := Function.update world.tables party final } := by
        have own : CapTable.TableStep build
            (World.tables { world with tables := Function.update world.tables party middle } party)
            label final := by
          simpa only [Function.update_self] using step
        simpa only [Function.update_idem] using table_step_lifts own
      refine ⟨_, .snoc before here, ?_⟩
      intro taken member
      rcases List.mem_append.mp member with first | last
      · rcases listed taken first with ⟨call, inside, same⟩
        exact ⟨call, List.mem_append_left _ inside, same⟩
      · cases List.mem_singleton.mp last
        exact ⟨_, List.mem_append_right _ (List.mem_singleton_self _), rfl⟩

/-- With the right to receive and room for it, a parked capability is received. -/
theorem receives_parked (sound : Sound world) {party : Party} {epCap : CapHandle}
    {ep : EndpointHandle} {cap : Capability} (live : Live world.arena ep.slot)
    (names : Names (world.tables party) epCap .recv ep)
    (parked : (stateAt world.queues ep).parked = some cap)
    (room : CapTable.isFull (world.tables party) = false) :
    ∃ msg fresh after, SystemStep build world
        ⟨.ipcRecv party epCap, .ok (.received (.received msg (some fresh)))⟩ after ∧
      capabilityAt (after.tables party) fresh = some cap := by
  rcases perform_returns sound (.ipcRecv party epCap) with ⟨result, after, listed, returned⟩
  have returned := returned build
  cases listed with
  | @received _ _ outcome final step =>
      cases step with
      | refused unnamed => exact absurd live (unnamed ep names)
      | full named otherLive isParked noRoom =>
          have full : CapTable.isFull (world.tables party) = true := noRoom
          rw [room] at full
          cases full
      | @received handle msg carried fresh table named otherLive stored installs =>
          cases names_unique names named
          have same : some cap = carried := by
            rw [← parked, EndpointState.parked]
            exact congrArg (fun parcel => parcel.bind Prod.snd) stored
          subst same
          have found := installs_capability installs (sound.tables party)
          cases fresh with
          | none => cases found
          | some entered => exact ⟨msg, entered, _, returned, by simpa using found⟩
      | pending named otherLive idle =>
          cases names_unique names named
          have empty : stateAt world.queues ep = .idle := idle
          rw [empty] at parked
          cases parked
      | busy named otherLive waiting =>
          cases names_unique names named
          have empty : stateAt world.queues ep = .recvWaiting := waiting
          rw [empty] at parked
          cases parked

theorem WorldStep.queues_of_nobody (nobody : Party → False)
    (step : WorldStep world op result after) : after.queues = world.queues := by
  cases step with
  | @sent party => exact (nobody party).elim
  | @received party => exact (nobody party).elim
  | @table party => exact (nobody party).elim
  | created available vacant => rfl
  | arenaFull full => rfl
  | destroyed stored own => rfl
  | stale dead => rfl

theorem queues_of_nobody (nobody : Party → False)
    (run : Run (GuardedStep build) emptyWorld trace world) : world.queues = IpcQueues.new := by
  induction run with
  | nil => rfl
  | snoc ran step ih =>
      have sound := sound_of_guarded_run empty_world_fresh.sound ran
      exact ((step.1.world_step sound).queues_of_nobody nobody).trans ih

theorem party_of_parked (reachable : Reachable build world) {ep : EndpointHandle}
    {cap : Capability} (parked : (stateAt world.queues ep).parked = some cap) :
    Nonempty Party := by
  by_contra nobody
  rcases reachable with ⟨trace, run⟩
  have untouched := queues_of_nobody (fun party => nobody ⟨party⟩) run
  have idle : stateAt world.queues ep = .idle := by
    rw [untouched, stateAt, state_in_new]
    exact ite_self _
  rw [idle] at parked
  cases parked

/-- A capability parked elsewhere than at its object gets back into a table: somebody
makes room, takes a right to receive from the endpoint and receives. -/
theorem received_again (reachable : Reachable build world) {ep : EndpointHandle}
    {cap : Capability} (live : Live world.arena ep.slot)
    (parked : (stateAt world.queues ep).parked = some cap)
    (elsewhere : cap.object ≠ .endpoint ep) :
    ∃ trace after party, Run (SystemStep build) world trace after ∧
      (∀ taken ∈ trace, Sidesteps cap.object taken.label.op) ∧
      referencesObject (after.tables party) cap.object = true := by
  rcases party_of_parked reachable parked with ⟨party⟩
  have sound := reachable.sound
  rcases CapTable.room_for_root build (sound.tables party) ⟨.recv, .endpoint ep⟩ with
    ⟨calls, table, epCap, made, allowed, found, room⟩
  rcases table_run_lifts made with ⟨lifted, run, listed⟩
  have sidesteps : ∀ taken ∈ lifted, Sidesteps cap.object taken.label.op := by
    intro taken member
    rcases listed taken member with ⟨call, inside, same⟩
    rw [same]
    rcases allowed call inside with ⟨dropped, isDrop⟩ | isInsert
    · rw [isDrop]
      exact True.intro
    · rw [isInsert]
      exact Ne.symm elsewhere
  have soundThere := sound_of_sidesteps sound run sidesteps
  have names : Names (Function.update world.tables party table party) epCap .recv ep := by
    rw [Function.update_self]
    exact ⟨_, found, CapRights.contains_refl _, rfl⟩
  have roomThere : CapTable.isFull (Function.update world.tables party table party) = false := by
    rw [Function.update_self]
    exact room
  rcases @receives_parked _ _ _ build soundThere party epCap ep cap live names parked roomThere with
    ⟨msg, fresh, after, received, entered⟩
  refine ⟨_, after, party, .snoc run received, ?_, ?_⟩
  · intro taken member
    rcases List.mem_append.mp member with first | last
    · exact sidesteps taken first
    · cases List.mem_singleton.mp last
      exact True.intro
  · rcases capability_at_iff.mp entered with ⟨held, resolves, rfl⟩
    rcases CapTable.resolves_of_space resolves with ⟨entry, entryLive, rfl⟩
    exact CapTable.references_object_iff.mpr ⟨_, entry, entryLive.1, rfl⟩

/-- In every reachable world, an object that no table names stays unnamed in all
continuations that put no new capability on it into a table, exactly if no endpoint
other than the object itself holds a capability on it parked. -/
theorem unreferenced_forever_iff (reachable : Reachable build world)
    (unreferenced : ∀ party, referencesObject (world.tables party) object = false) :
    (∀ trace after, Run (SystemStep build) world trace after →
      (∀ taken ∈ trace, Sidesteps object taken.label.op) →
        ∀ party, referencesObject (after.tables party) object = false) ↔
      ∀ ep cap, Live world.arena ep.slot → (stateAt world.queues ep).parked = some cap →
        cap.object = object → object = .endpoint ep := by
  constructor
  · intro forever ep cap live parked names
    by_contra elsewhere
    subst names
    rcases received_again reachable live parked elsewhere with
      ⟨trace, after, party, run, sidesteps, referenced⟩
    rw [forever trace after run sidesteps party] at referenced
    cases referenced
  · intro home trace after run sidesteps
    exact (confined_of_run reachable.sound unreferenced home run sidesteps).1

end Runs

end Worlds

def givenAway : List (SystemOp Bool) :=
  [.createEndpoint ⟨7⟩, .table true (.insertRoot ⟨⟨127⟩, .endpoint ⟨⟨0, 0⟩⟩⟩),
    .table false (.insertRoot ⟨⟨127⟩, .endpoint ⟨⟨0, 0⟩⟩⟩),
    .table true (.insertRoot ⟨⟨127⟩, .task ⟨⟨3, 0⟩⟩⟩),
    .ipcSend true ⟨0, 0⟩ threeWords (some ⟨1, 0⟩)]

theorem parked_given_away {ep : EndpointHandle} {cap : Capability}
    (parked : (stateAt (reached ⟨true⟩ givenAway).queues ep).parked = some cap) :
    cap.object = .task ⟨⟨3, 0⟩⟩ := by
  have stored : ∀ state ∈ (reached ⟨true⟩ givenAway).queues.states.toList,
      state.parked.all (fun cap => cap.object == .task ⟨⟨3, 0⟩⟩) = true := by decide +kernel
  rw [stateAt] at parked
  split at parked
  · rw [stateIn] at parked
    cases found : (reached ⟨true⟩ givenAway).queues.states[ep.slot.index]? with
    | none =>
        rw [found] at parked
        cases parked
    | some state =>
        rw [found] at parked
        have member : state ∈ (reached ⟨true⟩ givenAway).queues.states.toList := by
          apply List.mem_of_getElem? (i := ep.slot.index)
          simpa using found
        have names := stored state member
        rw [show state.parked = some cap from parked] at names
        exact eq_of_beq names
  · cases parked

/-- The capability on the task is in flight: the notification stays unnamed, the task need
not. -/
theorem unreferenced_forever_iff_settled :
    let task : CapObject := .task ⟨⟨3, 0⟩⟩
    let notification : CapObject := .notification ⟨⟨0, 0⟩⟩
    let world := reached ⟨true⟩ givenAway
    (stateAt world.queues ⟨⟨0, 0⟩⟩).parked = some ⟨⟨127⟩, task⟩ ∧
      (∀ trace after, Run (SystemStep ⟨true⟩) world trace after →
        (∀ taken ∈ trace, Sidesteps notification taken.label.op) →
          ∀ party, referencesObject (after.tables party) notification = false) ∧
      ¬ ∀ trace after, Run (SystemStep ⟨true⟩) world trace after →
        (∀ taken ∈ trace, Sidesteps task taken.label.op) →
          ∀ party, referencesObject (after.tables party) task = false := by
  intro task notification world
  have reachable : Reachable ⟨true⟩ world := reached_reachable ⟨true⟩ (by simp [givenAway])
  have unnamed : ∀ party, referencesObject (world.tables party) notification = false := by
    decide +kernel
  have unnamedToo : ∀ party, referencesObject (world.tables party) task = false := by
    decide +kernel
  have live : Live world.arena ⟨0, 0⟩ :=
    ⟨Option.isSome_iff_exists.mp (by decide +kernel), by decide +kernel⟩
  have parked : (stateAt world.queues ⟨⟨0, 0⟩⟩).parked = some ⟨⟨127⟩, task⟩ := by decide +kernel
  refine ⟨parked, (unreferenced_forever_iff reachable unnamed).mpr ?_, ?_⟩
  · intro ep cap _ stored names
    exact nomatch (names.symm.trans (parked_given_away stored) : notification = task)
  · rw [unreferenced_forever_iff reachable unnamedToo]
    intro home
    exact nomatch (home _ _ live parked rfl : task = _)

theorem parked_object_referenced_again :
    let task : CapObject := .task ⟨⟨3, 0⟩⟩
    let world := reached ⟨true⟩ givenAway
    Reachable ⟨true⟩ world ∧ (∀ party, referencesObject (world.tables party) task = false) ∧
      ∃ after, SystemStep ⟨true⟩ world
          ⟨.ipcRecv false ⟨0, 0⟩, .ok (.received (.received ⟨1, #v[2, 3, 4]⟩ (some ⟨1, 0⟩)))⟩ after ∧
        referencesObject (after.tables false) task = true := by
  intro task world
  have reachable : Reachable ⟨true⟩ world := reached_reachable ⟨true⟩ (by simp [givenAway])
  exact ⟨reachable, by decide +kernel, _, returned_of_report world (by decide +kernel),
    by decide +kernel⟩

end Tyrne.System
