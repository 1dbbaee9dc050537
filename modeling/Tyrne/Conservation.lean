import Mathlib.Algebra.BigOperators.Group.Finset.Piecewise
import Mathlib.Algebra.Order.Group.Multiset
import Mathlib.Data.Fintype.BigOperators
import Tyrne.Delivery

/-!
# Message passing conserves capabilities

A capability is in a table or parked at an endpoint. Sends, receives and the
creation and guarded destruction of endpoints move capabilities between those
places and neither make nor lose one.
-/

namespace Tyrne.System

open Tyrne.Lib.Effect
open Tyrne.Lib.Runs
open Tyrne.Cap
open Tyrne.CapTable (CapabilityTable SlotEntry capTableCapacity lookup spaceOf)
open Tyrne.CapSpace (Held Space)
open Tyrne.ObjArena
open Tyrne.Ipc

set_option autoImplicit false

def asMultiset : Option Capability → Multiset Capability
  | none => 0
  | some capability => {capability}

def capabilitiesIn (table : CapabilityTable) : Multiset Capability :=
  ∑ index ∈ Finset.range capTableCapacity,
    asMultiset ((CapTable.entryAt table index).map SlotEntry.capability)

def parkedIn (queues : IpcQueues) : Multiset Capability :=
  ∑ index ∈ Finset.range endpointArenaCapacity, asMultiset (stateIn queues index).parked

theorem sum_exchange {Place : Type} [DecidableEq Place] {places : Finset Place} {place : Place}
    (member : place ∈ places) (amount : Place → Multiset Capability)
    (fresh : Multiset Capability) :
    (∑ other ∈ places, Function.update amount place fresh other) + amount place =
      (∑ other ∈ places, amount other) + fresh := by
  rw [Finset.sum_update_of_mem member, ← Finset.add_sum_erase places amount member,
    Finset.sdiff_singleton_eq_erase]
  rw [add_comm fresh, add_right_comm, add_comm (amount place), add_right_comm]

/-! ## Tables -/

section Tables

variable {table after : CapabilityTable}

theorem capabilities_exchange {index : Index} (bound : index < capTableCapacity)
    {fresh : Option Held}
    (changed : (spaceOf after).held = Function.update (spaceOf table).held index fresh) :
    capabilitiesIn after + asMultiset (((spaceOf table).held index).map Held.capability) =
      capabilitiesIn table + asMultiset (fresh.map Held.capability) := by
  have held (any : CapabilityTable) (node : Index) :
      (CapTable.entryAt any node).map SlotEntry.capability =
        ((spaceOf any).held node).map Held.capability := by
    cases live : CapTable.entryAt any node <;> simp [spaceOf, live, CapTable.heldOf]
  have exchanged := sum_exchange (Finset.mem_range.mpr bound)
    (fun node => asMultiset (((spaceOf table).held node).map Held.capability))
    (asMultiset (fresh.map Held.capability))
  have summands : ∀ node, asMultiset (((spaceOf after).held node).map Held.capability) =
      Function.update (fun node => asMultiset (((spaceOf table).held node).map Held.capability))
        index (asMultiset (fresh.map Held.capability)) node := by
    intro node
    rw [changed]
    by_cases same : node = index
    · simp [same]
    · simp [same]
  simp only [capabilitiesIn, held, summands]
  exact exchanged

theorem take_space (wellFormed : CapTable.WellFormed table) {handle : CapHandle}
    {cap : Capability} (taken : CapTable.capTake handle table = .ok cap after) :
    spaceOf after = (spaceOf table).clear {handle.index} ∧
      ∃ held, (spaceOf table).Resolves handle held ∧ held.capability = cap := by
  have step := (take_step taken ⟨true⟩).simulates wellFormed
  generalize space : spaceOf after = final at step
  cases step with
  | @taken _ held resolves leaf => exact ⟨rfl, held, resolves, rfl⟩

theorem insert_space (wellFormed : CapTable.WellFormed table) {capability : Capability}
    {fresh : CapHandle} (inserted : CapTable.insertRoot capability table = .ok fresh after) :
    (spaceOf table).held fresh.index = none ∧
      spaceOf after = (spaceOf table).place fresh.index ⟨capability, none, 0⟩ := by
  have step := (insert_step inserted ⟨true⟩).simulates wellFormed
  generalize space : spaceOf after = final at step
  cases step with
  | rooted cap free => exact ⟨free, rfl⟩

theorem clear_held (space : Space) (index : Index) :
    (space.clear {index}).held = Function.update space.held index none := by
  funext node
  by_cases same : node = index
  · simp [Space.clear, same]
  · simp [Space.clear, same]

theorem held_in_range {index : Index} {held : Held}
    (found : (spaceOf table).held index = some held) : index < capTableCapacity := by
  rcases CapTable.space_held found with ⟨entry, live, _⟩
  exact CapTable.in_range_of_entry live

theorem takes_conserves {transfer : Option CapHandle} {owned : Option Capability}
    (takes : Takes table transfer owned after) (wellFormed : CapTable.WellFormed table) :
    capabilitiesIn after + asMultiset owned = capabilitiesIn table := by
  cases transfer with
  | none =>
      rw [takes.1, takes.2]
      simp [asMultiset]
  | some xfer =>
      rcases takes with ⟨cap, rfl, _, taken⟩
      rcases take_space wellFormed taken with ⟨space, held, resolves, rfl⟩
      have exchanged := capabilities_exchange (held_in_range resolves.1)
        ((congrArg Space.held space).trans (clear_held _ _))
      rw [resolves.1] at exchanged
      simpa [asMultiset] using exchanged

theorem installs_conserves {cap : Option Capability} {fresh : Option CapHandle}
    (installs : Installs table cap fresh after) (wellFormed : CapTable.WellFormed table) :
    capabilitiesIn after = capabilitiesIn table + asMultiset cap := by
  cases cap with
  | none =>
      rw [installs.2]
      simp [asMultiset]
  | some capability =>
      rcases installs with ⟨handle, _, inserted⟩
      rcases insert_space wellFormed inserted with ⟨free, space⟩
      have placed : (spaceOf after).held handle.index = some ⟨capability, none, 0⟩ := by
        simp [space, Space.place]
      have exchanged := capabilities_exchange (held_in_range placed) (congrArg Space.held space)
      rw [free] at exchanged
      simpa [asMultiset] using exchanged

theorem take_lookups (wellFormed : CapTable.WellFormed table) {handle : CapHandle}
    {cap : Capability} (taken : CapTable.capTake handle table = .ok cap after) :
    lookup handle after = .err .invalidHandle after ∧
      ∀ other capability, other ≠ handle → lookup other table = .ok capability table →
        lookup other after = .ok capability after := by
  rcases take_space wellFormed taken with ⟨space, held, resolves, _⟩
  constructor
  · apply CapTable.lookup_stale
    apply CapTable.stale_of_space
    intro any live
    rw [space] at live
    have gone := live.1
    simp [Space.clear] at gone
  · intro other capability different found
    rcases CapTable.lookup_iff.mp found with ⟨entry, otherResolves, same⟩
    have before := CapTable.resolves_space otherResolves
    have elsewhere : other.index ≠ handle.index := by
      intro sameIndex
      apply different
      have generations : other.generation = handle.generation := by
        rw [← before.2, ← resolves.2, sameIndex]
      cases other
      cases handle
      simp_all
    have live : (spaceOf after).Resolves other (CapTable.heldOf entry) := by
      rw [space]
      exact ⟨by simp [Space.clear, elsewhere, before.1], by simp [Space.clear, elsewhere, before.2]⟩
    rw [CapTable.lookup_of_space live, ← same]
    rfl

end Tables

/-! ## Queues -/

section Queues

variable {arena : EndpointArena} {queues : IpcQueues} {handle : EndpointHandle}

/-- At a live endpoint what its slot carries is what the endpoint carries. -/
theorem parked_recorded (attended : Attended Carries arena queues)
    (live : Live arena handle.slot) :
    (stateIn queues handle.slot.index).parked = (stateAt queues handle).parked := by
  by_cases recorded : recordedIn queues handle.slot.index = handle.slot.generation
  · rw [stateAt, if_pos recorded]
  · rw [attended.drained handle live recorded, stateAt, if_neg recorded]
    rfl

theorem parked_exchange (attended : Attended Carries arena queues)
    (live : Live arena handle.slot) (state : EndpointState) :
    parkedIn (setState queues handle state) + asMultiset (stateAt queues handle).parked =
      parkedIn queues + asMultiset state.parked := by
  have bound : handle.slot.index < endpointArenaCapacity := live.in_range
  have exchanged := sum_exchange (Finset.mem_range.mpr bound)
    (fun index => asMultiset (stateIn queues index).parked) (asMultiset state.parked)
  have summands : ∀ index, asMultiset (stateIn (setState queues handle state) index).parked =
      Function.update (fun index => asMultiset (stateIn queues index).parked)
        handle.slot.index (asMultiset state.parked) index := by
    intro index
    rw [state_in_set_state bound]
    by_cases same : index = handle.slot.index
    · simp [same]
    · simp [same]
  rw [← parked_recorded attended live]
  simp only [parkedIn, summands]
  exact exchanged

theorem parked_touch (attended : Attended Carries arena queues) (live : Live arena handle.slot) :
    parkedIn (touch queues handle) = parkedIn queues := by
  exact add_right_cancel (parked_exchange attended live (stateAt queues handle))

end Queues

/-! ## One step -/

/-- What a caller's table and the endpoints hold together. -/
def heldWith (state : IpcState) : Multiset Capability :=
  capabilitiesIn state.table + parkedIn state.queues

theorem put_conserves {state : IpcState} {handle : EndpointHandle} {now : EndpointState}
    {transfer : Option CapHandle} {owned : Option Capability} {table : CapabilityTable}
    (attended : Attended Carries state.arena state.queues)
    (wellFormed : CapTable.WellFormed state.table) (live : Live state.arena handle.slot)
    (empty : (stateAt state.queues handle).parked = none) (carries : now.parked = owned)
    (takes : Takes state.table transfer owned table) :
    capabilitiesIn table + parkedIn (setState state.queues handle now) =
      capabilitiesIn state.table + parkedIn state.queues := by
  have moved := parked_exchange attended live now
  rw [empty, carries] at moved
  have parked : parkedIn (setState state.queues handle now) =
      parkedIn state.queues + asMultiset owned := by
    simpa [asMultiset] using moved
  calc
    _ = capabilitiesIn table + (parkedIn state.queues + asMultiset owned) := by rw [parked]
    _ = capabilitiesIn table + asMultiset owned + parkedIn state.queues := by
      rw [add_comm (parkedIn state.queues), add_assoc]
    _ = _ := by rw [takes_conserves takes wellFormed]

theorem send_conserves {state final : IpcState} {epCap : CapHandle} {msg : Message}
    {transfer : Option CapHandle} {outcome : Except IpcError SendOutcome}
    (step : SendStep state epCap msg transfer outcome final)
    (attended : Attended Carries state.arena state.queues)
    (wellFormed : CapTable.WellFormed state.table) : heldWith final = heldWith state := by
  unfold heldWith
  cases step with
  | refused early => rfl
  | busy names live holds => rw [parked_touch attended live]
  | kept names live => rw [parked_touch attended live]
  | delivered names live waiting takes =>
      exact put_conserves attended wellFormed live (by rw [waiting]; rfl) rfl takes
  | enqueued names live idle takes =>
      exact put_conserves attended wellFormed live (by rw [idle]; rfl) rfl takes

theorem recv_conserves {state final : IpcState} {epCap : CapHandle}
    {outcome : Except IpcError RecvOutcome} (step : RecvStep state epCap outcome final)
    (attended : Attended Carries state.arena state.queues)
    (wellFormed : CapTable.WellFormed state.table) : heldWith final = heldWith state := by
  unfold heldWith
  cases step with
  | refused unnamed => rfl
  | full names live parked noRoom => rw [parked_touch attended live]
  | @received handle msg cap fresh table names live stored installs =>
      have moved := parked_exchange attended live .idle
      have carried : (stateAt state.queues handle).parked = cap := by
        rw [EndpointState.parked, stored]
        rfl
      rw [carried] at moved
      have parked : parkedIn (setState state.queues handle .idle) + asMultiset cap =
          parkedIn state.queues := by
        simpa [EndpointState.parked, EndpointState.stored, asMultiset] using moved
      rw [installs_conserves installs wellFormed, ← parked]
      rw [add_assoc, add_comm (asMultiset cap)]
  | @pending handle names live idle =>
      have moved := parked_exchange attended live .recvWaiting
      rw [idle] at moved
      have parked : parkedIn (setState state.queues handle .recvWaiting) =
          parkedIn state.queues := by
        simpa [EndpointState.parked, EndpointState.stored, asMultiset] using moved
      rw [parked]
  | busy names live waiting => rw [parked_touch attended live]

/-! ## The whole system -/

section World

variable {Party : Type} [DecidableEq Party] [Fintype Party] {world after : World Party}
  {op : SystemOp Party} {result : Except SystemError SystemReply}

def inSystem (world : World Party) : Multiset Capability :=
  (∑ party, capabilitiesIn (world.tables party)) + parkedIn world.queues

theorem in_system_put_back {party : Party} {final : IpcState}
    (conserved : heldWith final = heldWith (seenBy world party)) :
    inSystem (putBack world party final) = inSystem world := by
  have exchanged := sum_exchange (Finset.mem_univ party)
    (fun other => capabilitiesIn (world.tables other)) (capabilitiesIn final.table)
  have summands : ∀ other, capabilitiesIn ((putBack world party final).tables other) =
      Function.update (fun other => capabilitiesIn (world.tables other)) party
        (capabilitiesIn final.table) other := by
    intro other
    by_cases same : other = party
    · subst same
      simp
    · simp [putBack, same]
  apply add_right_cancel (b := capabilitiesIn (world.tables party))
  simp only [inSystem, summands]
  rw [add_right_comm, exchanged, add_assoc]
  have final_held : capabilitiesIn final.table + parkedIn final.queues =
      capabilitiesIn (world.tables party) + parkedIn world.queues := conserved
  rw [show (putBack world party final).queues = final.queues from rfl, final_held,
    add_comm (capabilitiesIn (world.tables party)), add_assoc]

def Shared (op : SystemOp Party) : Prop := ∀ party inner, op ≠ .table party inner

theorem WorldStep.conserves (step : WorldStep world op result after) (sound : Sound world)
    (shared : Shared op) : inSystem after = inSystem world := by
  cases step with
  | @sent party _ _ _ _ _ step =>
      apply in_system_put_back
      exact send_conserves step sound.attended (sound.tables party)
  | @received party _ _ _ step =>
      apply in_system_put_back
      exact recv_conserves step sound.attended (sound.tables party)
  | created available vacant => rfl
  | arenaFull full => rfl
  | destroyed stored own => rfl
  | stale dead => rfl
  | @table party inner _ _ returns => exact absurd rfl (shared party inner)

/-- What one call of the system does with capabilities. -/
structure Moves (taken : Transition (World Party) (SystemCall Party)) : Prop where
  conserved : Shared taken.label.op → inSystem taken.after = inSystem taken.before
  sent : ∀ party epCap msg xfer outcome,
    taken.label = ⟨.ipcSend party epCap msg (some xfer), .ok (.sent outcome)⟩ →
      (spaceOf (taken.after.tables party)).held =
          Function.update (spaceOf (taken.before.tables party)).held xfer.index none ∧
        lookup xfer (taken.after.tables party) =
          .err .invalidHandle (taken.after.tables party) ∧
        ∀ other capability, other ≠ xfer →
          lookup other (taken.before.tables party) = .ok capability (taken.before.tables party) →
            lookup other (taken.after.tables party) = .ok capability (taken.after.tables party)
  received : ∀ party epCap msg fresh,
    taken.label = ⟨.ipcRecv party epCap, .ok (.received (.received msg (some fresh)))⟩ →
      (spaceOf (taken.before.tables party)).held fresh.index = none ∧
        ∃ capability, spaceOf (taken.after.tables party) =
          (spaceOf (taken.before.tables party)).place fresh.index ⟨capability, none, 0⟩

theorem WorldStep.moves (step : WorldStep world op result after) (sound : Sound world) :
    Moves ⟨world, ⟨op, result⟩, after⟩ where
  conserved := step.conserves sound
  sent := by
    intro party epCap msg xfer outcome same
    cases same
    rcases sent_takes step with ⟨owned, cap, _, _, taken⟩
    have space := (take_space (sound.tables party) taken).1
    exact ⟨(congrArg Space.held space).trans (clear_held _ _),
      take_lookups (sound.tables party) taken⟩
  received := by
    intro party epCap msg fresh same
    cases same
    rcases received_installs step with ⟨cap, installs⟩
    cases cap with
    | none => exact absurd installs.1 (by simp)
    | some capability =>
        rcases installs with ⟨handle, same, inserted⟩
        cases same
        rcases insert_space (sound.tables party) inserted with ⟨free, space⟩
        exact ⟨free, capability, space⟩

omit [Fintype Party] in
theorem sound_of_run {build : Build} {start : World Party} {trace : SystemTrace Party}
    (fresh : Fresh start) (run : Run (SystemStep build) start trace after)
    (guarded : ∀ taken ∈ trace, Guarded taken.before taken.label.op) : Sound after := by
  induction run with
  | nil => exact fresh.sound
  | @snoc earlier middle final label ran step ih =>
      have sound := ih fun taken member => guarded taken (by simp [member])
      exact (step.world_step sound).sound sound (guarded ⟨middle, label, final⟩ (by simp))

theorem moves_of_run {build : Build} {start : World Party} {trace : SystemTrace Party}
    (fresh : Fresh start) (run : Run (SystemStep build) start trace after)
    (guarded : ∀ taken ∈ trace, Guarded taken.before taken.label.op) :
    ∀ taken ∈ trace, Moves taken := by
  intro taken member
  rcases List.append_of_mem member with ⟨front, back, rfl⟩
  rcases run_split run with ⟨middle, early, late⟩
  rcases run_cons late with ⟨same, step, _⟩
  have sound := sound_of_run fresh early fun other inFront => guarded other (by simp [inFront])
  cases taken with
  | mk first label last =>
      cases same
      exact (step.world_step sound).moves sound

/-- In every run that destroys no endpoint with a parked capability, each call other
than an operation on a party's own table leaves the capabilities of the system as they
are. A send with a transfer removes exactly the transferred entry from the sender's
table and a receive with a capability adds exactly one root to the receiver's. From
every world that is reached each call comes back, in every build alike. -/
theorem capabilities_conserved {build : Build} {start : World Party}
    {trace : SystemTrace Party} (fresh : Fresh start)
    (run : Run (SystemStep build) start trace after)
    (guarded : ∀ taken ∈ trace, Guarded taken.before taken.label.op) :
    (∀ taken ∈ trace, Moves taken) ∧
      ∀ op, ∃ result final, ∀ anyBuild, (perform anyBuild op after).Returned result final := by
  constructor
  · exact moves_of_run fresh run guarded
  · intro op
    rcases perform_returns (sound_of_run fresh run guarded) op with ⟨result, final, _, returned⟩
    exact ⟨result, final, returned⟩

end World

theorem capabilities_conserved_self_transfer :
    let sent := stepTo (.ipcSend () ⟨0, 0⟩ ⟨1, #v[2, 3, 4]⟩ (some ⟨0, 0⟩)) soloWorld
    inSystem sent = inSystem soloWorld ∧
      lookup ⟨0, 0⟩ (sent.tables ()) = .err .invalidHandle (sent.tables ()) := by
  intro sent
  have run : Run (SystemStep ⟨true⟩) soloWorld
      [⟨soloWorld, ⟨.ipcSend () ⟨0, 0⟩ ⟨1, #v[2, 3, 4]⟩ (some ⟨0, 0⟩), .ok (.sent .enqueued)⟩,
        sent⟩] sent :=
    .snoc .nil rfl
  have moves := (capabilities_conserved solo_world_fresh run (by simp [Guarded])).1 _
    (List.mem_singleton.mpr rfl)
  exact ⟨moves.conserved (by simp [Shared]), (moves.sent _ _ _ _ _ rfl).2.1⟩

end Tyrne.System
