import Tyrne.Lib.Provenance
import Tyrne.EndpointMachine

/-!
# Authority is only ever narrowed

A capability sits in a table or is parked at an endpoint. Copies and derivations make
new ones, sends and receives move them, and each of these leaves a capability whose
rights were already held. Without new roots no right on an object appears anywhere in
the system.
-/

namespace Tyrne.Cap

set_option autoImplicit false

theorem CapRights.contains_iff {self other : CapRights} :
    self.contains other = true ↔
      ∀ bit, other.bits.getLsbD bit = true → self.bits.getLsbD bit = true := by
  have both : self.contains other = true ↔ self.bits &&& other.bits = other.bits := beq_iff_eq
  rw [both]
  constructor
  · intro same bit isSet
    rw [← same, BitVec.getLsbD_and] at isSet
    exact (Bool.and_eq_true _ _ ▸ isSet).1
  · intro bits
    apply BitVec.eq_of_getLsbD_eq
    intro bit _
    rw [BitVec.getLsbD_and]
    cases isSet : other.bits.getLsbD bit with
    | false => rw [Bool.and_false]
    | true => rw [bits bit isSet, Bool.and_true]

theorem CapRights.contains_refl (rights : CapRights) : rights.contains rights = true :=
  contains_iff.mpr fun _ isSet => isSet

theorem CapRights.contains_trans {above middle rights : CapRights}
    (upper : above.contains middle = true) (lower : middle.contains rights = true) :
    above.contains rights = true :=
  contains_iff.mpr fun bit isSet => contains_iff.mp upper bit (contains_iff.mp lower bit isSet)

end Tyrne.Cap

namespace Tyrne.CapSpace

open Tyrne.Cap

set_option autoImplicit false

/-- Where the capability behind a handle was before the call. -/
inductive Origin (space : Space) (call : TableCall) (handle : CapHandle) (held : Held) : Prop where
  | kept (resolves : space.Resolves handle held)
  | rooted (call : call = ⟨.insertRoot held.capability, .ok (.handle handle)⟩)
  | copied {src : CapHandle} {newRights : CapRights} {source : Held}
      (call : call = ⟨.capCopy src newRights, .ok (.handle handle)⟩)
      (resolves : space.Resolves src source)
      (narrowed : source.capability.rights.contains held.capability.rights)
      (object : held.capability.object = source.capability.object)
  | derived {src : CapHandle} {newRights : CapRights} {source : Held}
      (call : call = ⟨.capDerive src newRights held.capability.object, .ok (.handle handle)⟩)
      (resolves : space.Resolves src source)
      (narrowed : source.capability.rights.contains held.capability.rights)

section Steps

variable {space final : Space} {call : TableCall}

theorem resolves_placed {index : Index} {fresh held : Held} {handle : CapHandle}
    (resolves : (space.place index fresh).Resolves handle held) :
    handle = ⟨index, space.generation index⟩ ∧ held = fresh ∨ space.Resolves handle held := by
  rcases resolves with ⟨there, own⟩
  by_cases same : handle.index = index
  · subst same
    left
    constructor
    · cases handle
      simp only [CapHandle.mk.injEq, true_and]
      exact own.symm
    · simpa [Space.place] using there.symm
  · right
    exact ⟨by simpa [Space.place, same] using there, own⟩

theorem resolves_cleared {cut : Set Index} {held : Held} {handle : CapHandle}
    (resolves : (space.clear cut).Resolves handle held) :
    handle.index ∉ cut ∧ space.Resolves handle held := by
  rcases resolves with ⟨there, own⟩
  by_cases member : handle.index ∈ cut
  · simp [Space.clear, member] at there
  · exact ⟨member, by simpa [Space.clear, member] using there,
      by simpa [Space.clear, member] using own⟩

theorem SpaceStep.origin (step : SpaceStep space call final) {handle : CapHandle} {held : Held}
    (resolves : final.Resolves handle held) : Origin space call handle held := by
  cases step with
  | refused op error => exact .kept resolves
  | rooted cap free =>
      rcases resolves_placed resolves with ⟨rfl, rfl⟩ | before
      · exact .rooted rfl
      · exact .kept before
  | copied found narrowed free =>
      rcases resolves_placed resolves with ⟨rfl, rfl⟩ | before
      · exact .copied rfl found narrowed rfl
      · exact .kept before
  | derived found narrowed free =>
      rcases resolves_placed resolves with ⟨rfl, rfl⟩ | before
      · exact .derived rfl found narrowed
      · exact .kept before
  | revoked found allowed => exact .kept (resolves_cleared resolves).2
  | dropped found leaf => exact .kept (resolves_cleared resolves).2
  | taken found leaf => exact .kept (resolves_cleared resolves).2

/-- Every parent is live and holds at least the rights of its child. -/
def Nested (space : Space) : Prop :=
  ∀ index held parent, space.held index = some held → held.parent = some parent →
    ∃ above, space.held parent = some above ∧
      above.capability.rights.contains held.capability.rights = true

theorem Nested.place (nested : Nested space) {index : Index} (free : space.held index = none)
    {fresh : Held} (lower : ∀ parent, fresh.parent = some parent → ∃ above,
      space.held parent = some above ∧
        above.capability.rights.contains fresh.capability.rights = true) :
    Nested (space.place index fresh) := by
  have stays : ∀ node above, space.held node = some above →
      (space.place index fresh).held node = some above := by
    intro node above there
    have different : node ≠ index := by
      intro same
      rw [same, free] at there
      cases there
    simpa [Space.place, different] using there
  intro node held parent there isParent
  by_cases same : node = index
  · subst same
    have isFresh : fresh = held := by simpa [Space.place] using there
    subst isFresh
    rcases lower parent isParent with ⟨above, here, contains⟩
    exact ⟨above, stays parent above here, contains⟩
  · have before : space.held node = some held := by simpa [Space.place, same] using there
    rcases nested node held parent before isParent with ⟨above, here, contains⟩
    exact ⟨above, stays parent above here, contains⟩

theorem Nested.clear (nested : Nested space) {cut : Set Index}
    (closed : ∀ child parent, space.ParentOf child parent → parent ∈ cut → child ∈ cut) :
    Nested (space.clear cut) := by
  intro node held parent there isParent
  by_cases member : node ∈ cut
  · simp [Space.clear, member] at there
  · have before : space.held node = some held := by simpa [Space.clear, member] using there
    rcases nested node held parent before isParent with ⟨above, here, contains⟩
    have child : space.ParentOf node parent := by simp [Space.ParentOf, before, isParent]
    have survives : parent ∉ cut := fun gone => member (closed node parent child gone)
    exact ⟨above, by simpa [Space.clear, survives] using here, contains⟩

theorem SpaceStep.nested (step : SpaceStep space call final) (nested : Nested space) :
    Nested final := by
  cases step with
  | refused op error => exact nested
  | rooted cap free => exact nested.place free nofun
  | @copied index src source newRights found narrowed free =>
      -- the copy hangs where its source hangs
      apply nested.place free
      intro parent isParent
      rcases nested src.index source parent found.1 isParent with ⟨above, here, contains⟩
      exact ⟨above, here, CapRights.contains_trans contains narrowed⟩
  | @derived index src source newRights newObject found narrowed free =>
      apply nested.place free
      intro parent isParent
      cases isParent
      exact ⟨source, found.1, narrowed⟩
  | revoked found allowed =>
      exact nested.clear fun child parent isChild below => .head isChild below
  | dropped found leaf =>
      apply nested.clear
      intro child parent isChild isIt
      cases isIt
      exact absurd isChild (leaf child)
  | taken found leaf =>
      apply nested.clear
      intro child parent isChild isIt
      cases isIt
      exact absurd isChild (leaf child)

end Steps

end Tyrne.CapSpace

namespace Tyrne.System

open Tyrne.Lib.Effect
open Tyrne.Lib.Runs
open Tyrne.Lib.Provenance
open Tyrne.Cap
open Tyrne.CapTable (CapabilityTable SlotEntry spaceOf)
open Tyrne.CapSpace (Held Nested Origin TableOp TableReply)
open Tyrne.ObjArena
open Tyrne.Ipc

set_option autoImplicit false

/-! ## Places -/

/-- Where a capability can be: in a party's table, or parked in a slot of the queues. -/
inductive Place (Party : Type) where
  | held (party : Party) (handle : CapHandle)
  | parked (index : Index)

section Tables

variable {table after : CapabilityTable} {handle : CapHandle} {cap : Capability}

theorem capability_at_iff :
    capabilityAt table handle = some cap ↔
      ∃ held, (spaceOf table).Resolves handle held ∧ held.capability = cap := by
  constructor
  · intro found
    rcases lookup_cases table handle with ⟨capability, live⟩ | missing
    · rcases CapTable.lookup_iff.mp live with ⟨entry, resolves, same⟩
      rw [capability_at_found live] at found
      cases found
      exact ⟨_, CapTable.resolves_space resolves, same⟩
    · simp [capabilityAt, missing] at found
  · rintro ⟨held, resolves, rfl⟩
    exact capability_at_found (CapTable.lookup_of_space resolves)

theorem takes_kept {transfer : Option CapHandle} {owned : Option Capability}
    (takes : Takes table transfer owned after) (wellFormed : CapTable.WellFormed table)
    (found : capabilityAt after handle = some cap) : capabilityAt table handle = some cap := by
  cases transfer with
  | none =>
      rw [← takes.2]
      exact found
  | some xfer =>
      rcases takes with ⟨taken, _, _, took⟩
      rcases capability_at_iff.mp found with ⟨held, resolves, same⟩
      rw [(take_space wellFormed took).1] at resolves
      exact capability_at_iff.mpr ⟨held, (CapSpace.resolves_cleared resolves).2, same⟩

theorem installs_origin {carried : Option Capability} {fresh : Option CapHandle}
    (installs : Installs table carried fresh after) (wellFormed : CapTable.WellFormed table)
    (found : capabilityAt after handle = some cap) :
    capabilityAt table handle = some cap ∨ carried = some cap ∧ fresh = some handle := by
  cases carried with
  | none =>
      left
      rw [← installs.2]
      exact found
  | some capability =>
      rcases installs with ⟨entered, same, inserted⟩
      have step := (insert_step inserted ⟨true⟩).simulates wellFormed
      rcases capability_at_iff.mp found with ⟨held, resolves, rfl⟩
      cases step.origin resolves with
      | kept before => exact Or.inl (capability_at_iff.mpr ⟨held, before, rfl⟩)
      | rooted call =>
          cases call
          exact Or.inr ⟨rfl, same⟩
      | copied call _ _ _ => cases call
      | derived call _ _ => cases call

end Tables

section Queues

variable {arena : EndpointArena} {queues : IpcQueues} {handle : EndpointHandle}

theorem parked_elsewhere (live : Live arena handle.slot) (state : EndpointState) {index : Index}
    (different : index ≠ handle.slot.index) :
    (stateIn (setState queues handle state) index).parked = (stateIn queues index).parked := by
  have bound : handle.slot.index < endpointArenaCapacity := live.in_range
  rw [state_in_set_state bound, Function.update_of_ne different]

theorem parked_here (live : Live arena handle.slot) (state : EndpointState) :
    (stateIn (setState queues handle state) handle.slot.index).parked = state.parked := by
  have bound : handle.slot.index < endpointArenaCapacity := live.in_range
  rw [state_in_set_state bound, Function.update_self]

theorem parked_touched (attended : Attended Carries arena queues) (live : Live arena handle.slot)
    (index : Index) :
    (stateIn (touch queues handle) index).parked = (stateIn queues index).parked := by
  by_cases same : index = handle.slot.index
  · subst same
    rw [touch, parked_here live, parked_recorded attended live]
  · exact parked_elsewhere live _ same

theorem parked_emptied (live : Live arena handle.slot) {state : EndpointState}
    (empty : state.parked = none) {index : Index} {cap : Capability}
    (there : (stateIn (setState queues handle state) index).parked = some cap) :
    (stateIn queues index).parked = some cap := by
  by_cases same : index = handle.slot.index
  · subst same
    rw [parked_here live, empty] at there
    cases there
  · rw [parked_elsewhere live _ same] at there
    exact there

end Queues

section Worlds

variable {Party : Type}

/-- The capability at a place: live, or in flight. -/
def capabilityIn (world : World Party) : Place Party → Option Capability
  | .held party handle => capabilityAt (world.tables party) handle
  | .parked index => (stateIn world.queues index).parked

/-- What is at the second place after the transition is, or was made from, what was at
the first before it. -/
inductive Stems (taken : Transition (World Party) (SystemCall Party)) :
    Place Party → Place Party → Prop where
  | kept {place : Place Party}
      (same : capabilityIn taken.after place = capabilityIn taken.before place) :
      Stems taken place place
  | copied {party : Party} {src fresh : CapHandle} {newRights : CapRights}
      (call : taken.label = ⟨.table party (.capCopy src newRights),
        .ok (.table (.handle fresh))⟩) :
      Stems taken (.held party src) (.held party fresh)
  | derived {party : Party} {src fresh : CapHandle} {newRights : CapRights}
      {newObject : CapObject}
      (call : taken.label = ⟨.table party (.capDerive src newRights newObject),
        .ok (.table (.handle fresh))⟩) :
      Stems taken (.held party src) (.held party fresh)
  | sent {party : Party} {epCap xfer : CapHandle} {msg : Message} {outcome : SendOutcome}
      {ep : EndpointHandle}
      (call : taken.label = ⟨.ipcSend party epCap msg (some xfer), .ok (.sent outcome)⟩)
      (named : endpointAt (taken.before.tables party) epCap = some ep)
      (live : Live taken.before.arena ep.slot) :
      Stems taken (.held party xfer) (.parked ep.slot.index)
  | received {party : Party} {epCap fresh : CapHandle} {msg : Message} {ep : EndpointHandle}
      (call : taken.label =
        ⟨.ipcRecv party epCap, .ok (.received (.received msg (some fresh)))⟩)
      (named : endpointAt (taken.before.tables party) epCap = some ep)
      (live : Live taken.before.arena ep.slot) :
      Stems taken (.parked ep.slot.index) (.held party fresh)

/-- How the capability at `target` got there: it stems from one that was there before,
or it is a new root. Only a derivation can name another object. -/
inductive Arrival (taken : Transition (World Party) (SystemCall Party)) (target : Place Party)
    (cap : Capability) : Prop where
  | inherited {source : Place Party} {above : Capability} (stems : Stems taken source target)
      (found : capabilityIn taken.before source = some above)
      (narrowed : above.rights.contains cap.rights = true)
      (object : above.object = cap.object ∨ ∃ party src newRights,
        taken.label.op = .table party (.capDerive src newRights cap.object) ∧
          source = .held party src)
  | rooted {party : Party} {fresh : CapHandle}
      (call : taken.label = ⟨.table party (.insertRoot cap), .ok (.table (.handle fresh))⟩)

variable {target : Place Party} {cap : Capability} {world after : World Party}

theorem arrival_kept {label : SystemCall Party} (found : capabilityIn after target = some cap)
    (before : capabilityIn world target = some cap) : Arrival ⟨world, label, after⟩ target cap :=
  .inherited (.kept (found.trans before.symm)) before (CapRights.contains_refl _) (Or.inl rfl)

variable [DecidableEq Party] {op : SystemOp Party} {result : Except SystemError SystemReply}

theorem arrival_in_table {party owner : Party} {label : SystemCall Party} {handle : CapHandle}
    {table : CapabilityTable} (tables : after.tables = Function.update world.tables party table)
    (found : capabilityIn after (.held owner handle) = some cap)
    (own : owner = party → capabilityAt table handle = some cap →
      Arrival ⟨world, label, after⟩ (.held owner handle) cap) :
    Arrival ⟨world, label, after⟩ (.held owner handle) cap := by
  by_cases same : owner = party
  · apply own same
    simpa [capabilityIn, tables, same] using found
  · apply arrival_kept found
    simpa [capabilityIn, tables, same] using found

theorem arrival_of_table {party : Party} {inner : TableOp} {reported : Except CapError TableReply}
    {table : CapabilityTable}
    (returns : ∀ build, CapTable.Returns build (world.tables party) inner reported table)
    (found : capabilityIn { world with tables := Function.update world.tables party table } target =
      some cap) :
    Arrival ⟨world, ⟨.table party inner, liftResult .cap .table reported⟩,
      { world with tables := Function.update world.tables party table }⟩ target cap := by
  cases target with
  | parked index => exact arrival_kept found found
  | held owner handle =>
      apply arrival_in_table rfl found
      intro same there
      subst same
      rcases capability_at_iff.mp there with ⟨held, resolves, rfl⟩
      have behind : ∀ src source, (spaceOf (world.tables owner)).Resolves src source →
          capabilityIn world (.held owner src) = some source.capability :=
        fun src source live => capability_at_iff.mpr ⟨source, live, rfl⟩
      cases (returns ⟨true⟩).simulates.origin resolves with
      | kept before => exact arrival_kept found (behind _ _ before)
      | rooted call =>
          cases call
          exact .rooted rfl
      | copied call live narrowed object =>
          cases call
          exact .inherited (.copied rfl) (behind _ _ live) narrowed (Or.inl object.symm)
      | derived call live narrowed =>
          cases call
          exact .inherited (.derived rfl) (behind _ _ live) narrowed
            (Or.inr ⟨_, _, _, rfl, rfl⟩)

theorem arrival_of_put {party : Party} {epCap : CapHandle} {msg : Message}
    {transfer : Option CapHandle} {owned : Option Capability} {outcome : SendOutcome}
    {handle : EndpointHandle} {state : EndpointState} {table : CapabilityTable}
    (sound : Sound world) (names : Names (world.tables party) epCap .send handle)
    (live : Live world.arena handle.slot)
    (takes : Takes (world.tables party) transfer owned table) (carries : state.parked = owned)
    (queues : after.queues = setState world.queues handle state)
    (tables : after.tables = Function.update world.tables party table)
    (found : capabilityIn after target = some cap) :
    Arrival ⟨world, ⟨.ipcSend party epCap msg transfer, .ok (.sent outcome)⟩, after⟩ target cap := by
  cases target with
  | held owner held =>
      apply arrival_in_table tables found
      intro same there
      subst same
      exact arrival_kept found (takes_kept takes (sound.tables owner) there)
  | parked index =>
      have there : (stateIn (setState world.queues handle state) index).parked = some cap := by
        rw [← queues]
        exact found
      by_cases same : index = handle.slot.index
      · subst same
        rw [parked_here live, carries] at there
        subst there
        have moved := takes_capability takes
        cases transfer with
        | none => cases moved
        | some xfer =>
            exact .inherited (.sent rfl (endpoint_at_named names) live) moved
              (CapRights.contains_refl _) (Or.inl rfl)
      · rw [parked_elsewhere live _ same] at there
        exact arrival_kept found there

omit [DecidableEq Party] in
theorem arrival_of_parked {label : SystemCall Party} (tables : after.tables = world.tables)
    (parked : ∀ index, (stateIn after.queues index).parked = some cap →
      (stateIn world.queues index).parked = some cap)
    (found : capabilityIn after target = some cap) :
    Arrival ⟨world, label, after⟩ target cap := by
  apply arrival_kept found
  cases target with
  | held owner handle => simpa [capabilityIn, tables] using found
  | parked index => exact parked index found

omit [DecidableEq Party] in
theorem arrival_of_same {label : SystemCall Party} (queues : after.queues = world.queues)
    (tables : after.tables = world.tables) (found : capabilityIn after target = some cap) :
    Arrival ⟨world, label, after⟩ target cap := by
  apply arrival_of_parked tables _ found
  intro index there
  rw [queues] at there
  exact there

omit [DecidableEq Party] in
theorem arrival_of_touch {label : SystemCall Party} {handle : EndpointHandle}
    (sound : Sound world) (live : Live world.arena handle.slot)
    (queues : after.queues = touch world.queues handle) (tables : after.tables = world.tables)
    (found : capabilityIn after target = some cap) :
    Arrival ⟨world, label, after⟩ target cap := by
  apply arrival_of_parked tables _ found
  intro index there
  rw [queues, parked_touched sound.attended live] at there
  exact there

omit [DecidableEq Party] in
theorem arrival_of_wait {label : SystemCall Party} {handle : EndpointHandle}
    (live : Live world.arena handle.slot)
    (queues : after.queues = setState world.queues handle .recvWaiting)
    (tables : after.tables = world.tables) (found : capabilityIn after target = some cap) :
    Arrival ⟨world, label, after⟩ target cap := by
  apply arrival_of_parked tables _ found
  intro index there
  rw [queues] at there
  exact parked_emptied live rfl there

theorem arrival_of_get {party : Party} {epCap : CapHandle} {msg : Message}
    {carried : Option Capability} {fresh : Option CapHandle} {handle : EndpointHandle}
    {table : CapabilityTable} (sound : Sound world)
    (names : Names (world.tables party) epCap .recv handle) (live : Live world.arena handle.slot)
    (stored : (stateAt world.queues handle).stored = some (msg, carried))
    (installs : Installs (world.tables party) carried fresh table)
    (queues : after.queues = setState world.queues handle .idle)
    (tables : after.tables = Function.update world.tables party table)
    (found : capabilityIn after target = some cap) :
    Arrival ⟨world, ⟨.ipcRecv party epCap, .ok (.received (.received msg fresh))⟩, after⟩
      target cap := by
  have carriedThere : (stateIn world.queues handle.slot.index).parked = carried := by
    rw [parked_recorded sound.attended live, EndpointState.parked, stored]
    rfl
  cases target with
  | parked index =>
      have there : (stateIn (setState world.queues handle .idle) index).parked = some cap := by
        rw [← queues]
        exact found
      exact arrival_kept found (parked_emptied live rfl there)
  | held owner held =>
      apply arrival_in_table tables found
      intro same there
      subst same
      rcases installs_origin installs (sound.tables owner) there with before | ⟨rfl, rfl⟩
      · exact arrival_kept found before
      · exact .inherited (.received rfl (endpoint_at_named names) live) carriedThere
          (CapRights.contains_refl _) (Or.inl rfl)

theorem put_back_same {party : Party} {final : IpcState}
    (table : final.table = world.tables party) : (putBack world party final).tables = world.tables := by
  simp [putBack, table]

theorem arrival_of_send {party : Party} {epCap : CapHandle} {msg : Message}
    {transfer : Option CapHandle} {outcome : Except IpcError SendOutcome} {final : IpcState}
    (step : SendStep (seenBy world party) epCap msg transfer outcome final) (sound : Sound world)
    (found : capabilityIn (putBack world party final) target = some cap) :
    Arrival ⟨world, ⟨.ipcSend party epCap msg transfer, liftResult .ipc .sent outcome⟩,
      putBack world party final⟩ target cap := by
  cases step with
  | refused early => exact arrival_of_same rfl (put_back_same rfl) found
  | busy names live holds => exact arrival_of_touch sound live rfl (put_back_same rfl) found
  | kept names live => exact arrival_of_touch sound live rfl (put_back_same rfl) found
  | delivered names live waiting takes =>
      exact arrival_of_put sound names live takes rfl rfl rfl found
  | enqueued names live idle takes =>
      exact arrival_of_put sound names live takes rfl rfl rfl found

theorem arrival_of_recv {party : Party} {epCap : CapHandle}
    {outcome : Except IpcError RecvOutcome} {final : IpcState}
    (step : RecvStep (seenBy world party) epCap outcome final) (sound : Sound world)
    (found : capabilityIn (putBack world party final) target = some cap) :
    Arrival ⟨world, ⟨.ipcRecv party epCap, liftResult .ipc .received outcome⟩,
      putBack world party final⟩ target cap := by
  cases step with
  | refused unnamed => exact arrival_of_same rfl (put_back_same rfl) found
  | full names live parked noRoom => exact arrival_of_touch sound live rfl (put_back_same rfl) found
  | busy names live waiting => exact arrival_of_touch sound live rfl (put_back_same rfl) found
  | pending names live idle =>
      exact arrival_of_wait live rfl (put_back_same rfl) found
  | received names live stored installs =>
      exact arrival_of_get sound names live stored installs rfl rfl found

theorem WorldStep.arrival (step : WorldStep world op result after) (sound : Sound world)
    (found : capabilityIn after target = some cap) :
    Arrival ⟨world, ⟨op, result⟩, after⟩ target cap := by
  cases step with
  | sent step => exact arrival_of_send step sound found
  | received step => exact arrival_of_recv step sound found
  | created available vacant => exact arrival_of_same rfl rfl found
  | arenaFull full => exact arrival_of_same rfl rfl found
  | destroyed stored own => exact arrival_of_same rfl rfl found
  | stale dead => exact arrival_of_same rfl rfl found
  | table returns => exact arrival_of_table returns found

/-! ## Parents -/

theorem takes_nested {table next : CapabilityTable} {transfer : Option CapHandle}
    {owned : Option Capability} (takes : Takes table transfer owned next)
    (wellFormed : CapTable.WellFormed table) (nested : Nested (spaceOf table)) :
    Nested (spaceOf next) := by
  cases transfer with
  | none =>
      rw [takes.2]
      exact nested
  | some xfer =>
      rcases takes with ⟨taken, _, _, took⟩
      exact ((take_step took ⟨true⟩).simulates wellFormed).nested nested

theorem installs_nested {table next : CapabilityTable} {carried : Option Capability}
    {fresh : Option CapHandle} (installs : Installs table carried fresh next)
    (wellFormed : CapTable.WellFormed table) (nested : Nested (spaceOf table)) :
    Nested (spaceOf next) := by
  cases carried with
  | none =>
      rw [installs.2]
      exact nested
  | some capability =>
      rcases installs with ⟨entered, _, inserted⟩
      exact ((insert_step inserted ⟨true⟩).simulates wellFormed).nested nested

theorem send_nested {state final : IpcState} {epCap : CapHandle} {msg : Message}
    {transfer : Option CapHandle} {outcome : Except IpcError SendOutcome}
    (step : SendStep state epCap msg transfer outcome final)
    (wellFormed : CapTable.WellFormed state.table) (nested : Nested (spaceOf state.table)) :
    Nested (spaceOf final.table) := by
  cases step with
  | refused early => exact nested
  | busy names live holds => exact nested
  | kept names live => exact nested
  | delivered names live waiting takes => exact takes_nested takes wellFormed nested
  | enqueued names live idle takes => exact takes_nested takes wellFormed nested

theorem recv_nested {state final : IpcState} {epCap : CapHandle}
    {outcome : Except IpcError RecvOutcome} (step : RecvStep state epCap outcome final)
    (wellFormed : CapTable.WellFormed state.table) (nested : Nested (spaceOf state.table)) :
    Nested (spaceOf final.table) := by
  cases step with
  | refused unnamed => exact nested
  | full names live parked noRoom => exact nested
  | pending names live idle => exact nested
  | busy names live waiting => exact nested
  | received names live stored installs => exact installs_nested installs wellFormed nested

theorem WorldStep.nested (step : WorldStep world op result after) (sound : Sound world)
    (nested : ∀ party, Nested (spaceOf (world.tables party))) (party : Party) :
    Nested (spaceOf (after.tables party)) := by
  have changed : ∀ owner table, Nested (spaceOf table) →
      Nested (spaceOf (Function.update world.tables owner table party)) := by
    intro owner table fresh
    by_cases same : party = owner
    · rw [same, Function.update_self]
      exact fresh
    · rw [Function.update_of_ne same]
      exact nested party
  cases step with
  | sent step => exact changed _ _ (send_nested step (sound.tables _) (nested _))
  | received step => exact changed _ _ (recv_nested step (sound.tables _) (nested _))
  | created available vacant => exact nested party
  | arenaFull full => exact nested party
  | destroyed stored own => exact nested party
  | stale dead => exact nested party
  | @table caller _ _ _ returns =>
      exact changed _ _ ((returns ⟨true⟩).simulates.nested (nested caller))

/-! ## Runs -/

/-- No capability is put into a table by hand. -/
def Rootless (op : SystemOp Party) : Prop := ∀ party cap, op ≠ .table party (.insertRoot cap)

def KeepsObject (taken : Transition (World Party) (SystemCall Party)) : Prop :=
  ∀ party src newRights newObject,
    taken.label.op = .table party (.capDerive src newRights newObject) →
      ∀ source, capabilityAt (taken.before.tables party) src = some source →
        source.object = newObject

def Wider (above cap : Capability) : Prop := above.rights.contains cap.rights = true

/-- One capability has all rights of the other, on the same object. -/
def Over (above cap : Capability) : Prop := Wider above cap ∧ above.object = cap.object

theorem wider_refl (cap : Capability) : Wider cap cap := CapRights.contains_refl _

theorem Wider.trans {above middle cap : Capability} (upper : Wider above middle)
    (lower : Wider middle cap) : Wider above cap :=
  CapRights.contains_trans upper lower

theorem over_refl (cap : Capability) : Over cap cap := ⟨wider_refl cap, rfl⟩

theorem Over.trans {above middle cap : Capability} (upper : Over above middle)
    (lower : Over middle cap) : Over above cap :=
  ⟨upper.1.trans lower.1, upper.2.trans lower.2⟩

/-- All rights held on the object, in the tables and at the endpoints. -/
def rightsOn (world : World Party) (object : CapObject) : Set Nat :=
  { bit | ∃ place cap, capabilityIn world place = some cap ∧ cap.object = object ∧
      cap.rights.bits.getLsbD bit = true }

section Runs

variable {build : Build} {start : World Party} {trace : SystemTrace Party}

theorem nested_of_reachable (reachable : Reachable build world) (party : Party) :
    Nested (spaceOf (world.tables party)) := by
  rcases reachable with ⟨trace, run⟩
  have initial : ∀ party, Nested (spaceOf ((emptyWorld : World Party).tables party)) := by
    intro party index held parent found
    have empty : spaceOf ((emptyWorld : World Party).tables party) = CapSpace.empty :=
      CapTable.space_new
    rw [empty] at found
    cases found
  have preserved : ∀ (before : World Party) (call : SystemCall Party) (final : World Party),
      (Sound before ∧ ∀ party, Nested (spaceOf (before.tables party))) →
      GuardedStep build before call final →
      Sound final ∧ ∀ party, Nested (spaceOf (final.tables party)) := by
    rintro before call final ⟨sound, nested⟩ ⟨step, guarded⟩
    have listed := step.world_step sound
    exact ⟨listed.sound sound guarded, listed.nested sound nested⟩
  exact (run_invariant ⟨empty_world_fresh.sound, initial⟩ preserved run).2 party

theorem inherits_of_run (sound : Sound start) (run : Run (GuardedStep build) start trace after)
    (rootless : ∀ taken ∈ trace, Rootless taken.label.op)
    {taken : Transition (World Party) (SystemCall Party)} (member : taken ∈ trace) :
    Inherits Stems capabilityIn Wider taken ∧
      (KeepsObject taken → Inherits Stems capabilityIn Over taken) := by
  rcases run_member run member with ⟨front, early, step, _⟩
  have before := sound_of_guarded_run sound early
  have listed := step.1.world_step before
  constructor
  · intro target cap found
    cases listed.arrival before found with
    | rooted call => exact absurd (congrArg SystemCall.op call) (rootless taken member _ _)
    | inherited stems there narrowed object => exact ⟨_, _, stems, there, narrowed⟩
  · intro keeps target cap found
    cases listed.arrival before found with
    | rooted call => exact absurd (congrArg SystemCall.op call) (rootless taken member _ _)
    | inherited stems there narrowed object =>
        refine ⟨_, _, stems, there, narrowed, ?_⟩
        rcases object with same | ⟨party, src, newRights, isDerive, rfl⟩
        · exact same
        · exact keeps party src newRights cap.object isDerive _ there

omit [DecidableEq Party] in
theorem rights_on_subset
    (covered : ∀ place cap, capabilityIn after place = some cap →
      ∃ origin above, capabilityIn world origin = some above ∧ Over above cap)
    (object : CapObject) : rightsOn after object ⊆ rightsOn world object := by
  rintro bit ⟨place, cap, found, names, isSet⟩
  rcases covered place cap found with ⟨origin, above, there, narrowed, same⟩
  exact ⟨origin, above, there, same.trans names, CapRights.contains_iff.mp narrowed bit isSet⟩

/-- Along every run without new roots from a reachable world: every capability in a
table or in flight descends, by copies, derivations and transfers, from one of the start
that had all its rights; every live entry has at most the rights of its parent; and if
derivations keep the object, no call adds to the rights held on any object. -/
theorem authority_attenuates (reachable : Reachable build start)
    (run : Run (GuardedStep build) start trace after)
    (rootless : ∀ taken ∈ trace, Rootless taken.label.op) :
    (∀ place cap, capabilityIn after place = some cap →
      ∃ origin above, Descends Stems trace origin place ∧
        capabilityIn start origin = some above ∧ above.rights.contains cap.rights = true) ∧
    (∀ party index entry parent, CapTable.entryAt (after.tables party) index = some entry →
      entry.parent = some parent →
        ∃ above, CapTable.entryAt (after.tables party) parent = some above ∧
          above.capability.rights.contains entry.capability.rights = true) ∧
    ((∀ taken ∈ trace, KeepsObject taken) → ∀ object,
      (∀ taken ∈ trace, rightsOn taken.after object ⊆ rightsOn taken.before object) ∧
        rightsOn after object ⊆ rightsOn start object) := by
  have sound := reachable.sound
  refine ⟨?_, ?_, ?_⟩
  · intro place cap found
    have narrows : ∀ taken ∈ trace, Inherits Stems capabilityIn Wider taken :=
      fun taken member => (inherits_of_run sound run rootless member).1
    exact descends_of_run wider_refl (fun _ _ _ => Wider.trans) run narrows found
  · intro party index entry parent found isParent
    rcases reachable with ⟨front, earlier⟩
    have nested := nested_of_reachable ⟨_, run_append earlier run⟩ party
    rcases nested index _ parent (CapTable.space_live found) isParent with
      ⟨above, there, contains⟩
    rcases CapTable.space_held there with ⟨upper, live, rfl⟩
    exact ⟨upper, live, contains⟩
  · intro keeps object
    have narrows : ∀ taken ∈ trace, Inherits Stems capabilityIn Over taken :=
      fun taken member => (inherits_of_run sound run rootless member).2 (keeps taken member)
    constructor
    · intro taken member
      apply rights_on_subset
      intro place cap found
      rcases narrows taken member place cap found with ⟨source, above, _, there, covers⟩
      exact ⟨source, above, there, covers⟩
    · apply rights_on_subset
      intro place cap found
      rcases descends_of_run over_refl (fun _ _ _ => Over.trans) run narrows found with
        ⟨origin, above, _, there, covers⟩
      exact ⟨origin, above, there, covers⟩

end Runs

end Worlds

def lender : World Bool :=
  reached ⟨true⟩ [.createEndpoint ⟨7⟩, .table true (.insertRoot ⟨⟨127⟩, .endpoint ⟨⟨0, 0⟩⟩⟩),
    .table false (.insertRoot ⟨⟨127⟩, .endpoint ⟨⟨0, 0⟩⟩⟩),
    .table true (.insertRoot ⟨⟨127⟩, .task ⟨⟨3, 0⟩⟩⟩)]

def lending : List (SystemCall Bool) :=
  [⟨.table true (.capDerive ⟨1, 0⟩ ⟨9⟩ (.task ⟨⟨3, 0⟩⟩)), .ok (.table (.handle ⟨2, 0⟩))⟩,
    ⟨.ipcSend true ⟨0, 0⟩ threeWords (some ⟨2, 0⟩), .ok (.sent .enqueued)⟩,
    ⟨.ipcRecv false ⟨0, 0⟩, .ok (.received (.received threeWords (some ⟨1, 0⟩)))⟩,
    ⟨.table false (.capCopy ⟨1, 0⟩ ⟨1⟩), .ok (.table (.handle ⟨2, 0⟩))⟩]

theorem authority_attenuates_lent :
    let task : CapObject := .task ⟨⟨3, 0⟩⟩
    let after := enactedTo ⟨true⟩ lender lending
    capabilityIn after (.held false ⟨2, 0⟩) = some ⟨⟨1⟩, task⟩ ∧
      (∃ origin above, Descends Stems (enacted ⟨true⟩ lender lending) origin (.held false ⟨2, 0⟩) ∧
        capabilityIn lender origin = some above ∧ above.rights.contains ⟨1⟩ = true) ∧
      rightsOn after task ⊆ rightsOn lender task := by
  intro task after
  have reachable : Reachable ⟨true⟩ lender := reached_reachable ⟨true⟩ (by simp)
  have run : Run (GuardedStep ⟨true⟩) lender (enacted ⟨true⟩ lender lending) after :=
    enacted_run (by decide +kernel)
  have rootless : ∀ taken ∈ enacted ⟨true⟩ lender lending, Rootless taken.label.op := by
    simp [enacted, lending, Rootless]
  have keeps : ∀ taken ∈ enacted ⟨true⟩ lender lending, KeepsObject taken := by
    have source : capabilityAt (lender.tables true) ⟨1, 0⟩ = some ⟨⟨127⟩, task⟩ := by decide +kernel
    simp [enacted, lending, KeepsObject, source, task]
  have found : capabilityIn after (.held false ⟨2, 0⟩) = some ⟨⟨1⟩, task⟩ := by decide +kernel
  rcases authority_attenuates reachable run rootless with ⟨descends, _, shrinks⟩
  exact ⟨found, descends _ _ found, (shrinks keeps task).2⟩

end Tyrne.System
