import Tyrne.CapSpaceHistory
import Tyrne.CapTableRun

/-!
# Handles over the history of a table

A run of table operations is a run of the space it represents, so what the space's
history says about handles holds of `lookup` and of every operation of the table.
-/

namespace Tyrne.CapTable

open Tyrne.Lib.Effect
open Tyrne.Lib.Runs
open Tyrne.Cap
open Tyrne.CapSpace

set_option autoImplicit false

abbrev TableTrace : Type := List (Transition CapabilityTable TableCall)

def freedTimes (index : Index) (trace : TableTrace) : Nat :=
  trace.countP fun taken =>
    (entryAt taken.before index).isSome && (entryAt taken.after index).isNone

def spaceTrace (trace : TableTrace) : SpaceTrace :=
  trace.map fun taken => ⟨spaceOf taken.before, taken.label, spaceOf taken.after⟩

theorem free_count_space (index : Index) (trace : TableTrace) :
    freeCount index (spaceTrace trace) = freedTimes index trace := by
  simp only [freeCount, spaceTrace, List.countP_map, freedTimes]
  apply List.countP_congr
  intro taken _
  simp [Clears, spaceOf]

theorem space_trace_labels (trace : TableTrace) :
    (spaceTrace trace).map Transition.label = trace.map Transition.label := by
  simp [spaceTrace]

theorem space_new : spaceOf new = empty := by
  apply Space.ext
  · funext index
    simp [spaceOf, entry_at_new, empty]
  · funext index
    simp [spaceOf, generation_at_new, empty]

section Steps

variable {build : Build} {table after : CapabilityTable} {call : TableCall}

theorem TableStep.returns (wellFormed : WellFormed table)
    (step : TableStep build table call after) :
    Returns build table call.op call.result after := by
  rcases perform_returns wellFormed call.op with ⟨result, final, returns⟩
  rcases Outcome.Returned.unique (returns build).step step with ⟨sameResult, sameTable⟩
  rw [← sameResult, ← sameTable]
  exact returns build

theorem TableStep.well_formed (wellFormed : WellFormed table)
    (step : TableStep build table call after) : WellFormed after :=
  (step.returns wellFormed).wellFormed

theorem TableStep.simulates (wellFormed : WellFormed table)
    (step : TableStep build table call after) :
    SpaceStep (spaceOf table) call (spaceOf after) :=
  (step.returns wellFormed).simulates

end Steps

section Runs

variable {build : Build} {start after : CapabilityTable} {trace : TableTrace}

theorem run_well_formed (wellFormed : WellFormed start)
    (run : Run (TableStep build) start trace after) : WellFormed after :=
  run_invariant wellFormed (fun _ _ _ kept step => step.well_formed kept) run

theorem run_space (wellFormed : WellFormed start)
    (run : Run (TableStep build) start trace after) :
    Run SpaceStep (spaceOf start) (spaceTrace trace) (spaceOf after) :=
  run_map spaceOf wellFormed (fun _ _ _ kept step => step.well_formed kept)
    (fun _ _ _ kept step => step.simulates kept) run

theorem run_space_new (run : Run (TableStep build) new trace after) :
    Run SpaceStep empty (spaceTrace trace) (spaceOf after) := by
  rw [← space_new]
  exact run_space new_well_formed run

end Runs

section Lookups

variable {build : Build} {table : CapabilityTable} {handle : CapHandle}

theorem resolves_of_space {held : Held} (resolves : (spaceOf table).Resolves handle held) :
    ∃ entry, Resolves table handle entry ∧ heldOf entry = held := by
  rcases space_held resolves.1 with ⟨entry, live, same⟩
  exact ⟨entry, ⟨live, resolves.2⟩, same⟩

theorem lookup_of_space {held : Held} (resolves : (spaceOf table).Resolves handle held) :
    lookup handle table = .ok held.capability table := by
  rcases resolves_of_space resolves with ⟨entry, found, same⟩
  rw [lookup_live found, ← same]
  rfl

theorem stale_of_space (dead : ∀ held, ¬ (spaceOf table).Resolves handle held) (entry : SlotEntry) :
    ¬ Resolves table handle entry := by
  intro resolves
  exact dead _ (resolves_space resolves)

theorem argument_live (wellFormed : WellFormed table) {entry : SlotEntry}
    (resolves : Resolves table handle entry) {op : TableOp} (acts : subject op = some handle)
    (after : CapabilityTable) : perform build op table ≠ .err .invalidHandle after := by
  intro refused
  have step : TableStep build table ⟨op, .error .invalidHandle⟩ after := refused
  rcases (step.returns wellFormed).stale.mp rfl with ⟨other, acts', stale⟩
  cases acts.symm.trans acts'
  exact stale entry resolves

theorem argument_stale (wellFormed : WellFormed table)
    (stale : ∀ entry, ¬ Resolves table handle entry) {op : TableOp}
    (acts : subject op = some handle) :
    perform build op table = .err .invalidHandle table := by
  rcases perform_returns wellFormed op with ⟨result, after, returns⟩
  have refused := (returns build).stale.mpr ⟨handle, acts, stale⟩
  have same := (returns build).refused _ refused
  have step := (returns build).step
  rw [refused, same] at step
  exact step

end Lookups

/-! ## Temporal safety of handles -/

theorem resolves_until_ended {build : Build} {start after : CapabilityTable}
    {trace : TableTrace} (wellFormed : WellFormed start)
    (run : Run (TableStep build) start trace after)
    (bounded : ∀ index, freedTimes index trace < 2 ^ 32) {handle : CapHandle} {held : Held}
    (resolves : (spaceOf start).Resolves handle held) :
    ((∀ taken ∈ trace, ¬ Ends (spaceOf taken.before) taken.label handle) →
        (spaceOf after).Resolves handle held) ∧
      ((∃ taken ∈ trace, Ends (spaceOf taken.before) taken.label handle) →
        ∀ other, ¬ (spaceOf after).Resolves handle other) := by
  have abstracted := run_space wellFormed run
  rcases kept_or_ended abstracted resolves with ⟨_, live, unended⟩ | ⟨cleared, last, member, ends⟩
  · refine ⟨fun _ => live, ?_⟩
    rintro ⟨taken, member, ends⟩
    exact absurd ends (unended _ (List.mem_map_of_mem member))
  · constructor
    · intro unended
      rcases List.mem_map.mp member with ⟨taken, taken_member, rfl⟩
      exact absurd ends (unended taken taken_member)
    · intro _ other live
      rw [free_count_space] at cleared
      have moved := @generation_moved _ _ _ abstracted handle.index
        (by rw [free_count_space]; exact cleared)
        (by rw [free_count_space]; exact bounded handle.index)
      exact moved (live.2.trans resolves.2.symm)

theorem freed_times_append (index : Index) (front back : TableTrace) :
    freedTimes index (front ++ back) = freedTimes index front + freedTimes index back :=
  List.countP_append

theorem bounded_suffix {front back : TableTrace}
    (bounded : ∀ index, freedTimes index (front ++ back) < 2 ^ 32) (index : Index) :
    freedTimes index back < 2 ^ 32 := by
  have total := bounded index
  rw [freed_times_append] at total
  omega

theorem bounded_front {front back : TableTrace}
    (bounded : ∀ index, freedTimes index (front ++ back) < 2 ^ 32) (index : Index) :
    freedTimes index front < 2 ^ 32 := by
  have total := bounded index
  rw [freed_times_append] at total
  omega

/-- After the call that issued it, a handle names the same capability, in lookups and
as an argument, until the call that ends it, and nothing from then on; and no two
insertions of a run return the same handle. -/
theorem handle_temporal_safety {build : Build} {trace : TableTrace} {after : CapabilityTable}
    (run : Run (TableStep build) new trace after)
    (bounded : ∀ index, freedTimes index trace < 2 ^ 32) :
    (∀ front born back handle, trace = front ++ born :: back → Issues born.label handle →
      ∃ capability, lookup handle born.after = .ok capability born.after ∧
        ((∀ taken ∈ back, ¬ Ends (spaceOf taken.before) taken.label handle) →
          lookup handle after = .ok capability after ∧
            ∀ op, subject op = some handle →
              ∀ table, perform build op after ≠ .err .invalidHandle table) ∧
        ((∃ taken ∈ back, Ends (spaceOf taken.before) taken.label handle) →
          lookup handle after = .err .invalidHandle after ∧
            ∀ op, subject op = some handle →
              perform build op after = .err .invalidHandle after)) ∧
    (∀ front one middle two back left right, trace = front ++ one :: (middle ++ two :: back) →
      Issues one.label left → Issues two.label right → left ≠ right) := by
  have finallyFormed := run_well_formed new_well_formed run
  constructor
  · intro front born back handle whole issues
    subst whole
    rcases run_split run with ⟨middle, early, late⟩
    rcases run_cons late with ⟨_, step, rest⟩
    have middleFormed := run_well_formed new_well_formed early
    have bornFormed := step.well_formed middleFormed
    rcases ((step.simulates middleFormed).issued issues).2.2 with ⟨held, resolves⟩
    rcases resolves_until_ended bornFormed rest
      (bounded_suffix (bounded_suffix bounded : ∀ index, freedTimes index ([born] ++ back) < _))
      resolves with ⟨kept, dead⟩
    refine ⟨held.capability, lookup_of_space resolves, ?_, ?_⟩
    · intro unended
      have live := kept unended
      rcases resolves_of_space live with ⟨entry, found, _⟩
      exact ⟨lookup_of_space live, fun op acts => argument_live finallyFormed found acts⟩
    · intro ended
      have stale := stale_of_space (dead ended)
      exact ⟨lookup_stale stale, fun op acts => argument_stale finallyFormed stale acts⟩
  · intro front one middle two back left right whole issuesLeft issuesRight same
    subst whole
    subst same
    rcases run_split run with ⟨start, early, late⟩
    rcases run_cons late with ⟨_, stepOne, rest⟩
    rcases run_split rest with ⟨between, gap, final⟩
    rcases run_cons final with ⟨_, stepTwo, _⟩
    have startFormed := run_well_formed new_well_formed early
    have oneFormed := stepOne.well_formed startFormed
    have gapFormed := run_well_formed oneFormed gap
    rcases ((stepOne.simulates startFormed).issued issuesLeft).2.2 with ⟨held, resolves⟩
    rcases (stepTwo.simulates gapFormed).issued issuesRight with ⟨free, generation, _⟩
    have abstracted := run_space oneFormed gap
    rcases kept_or_ended abstracted resolves with ⟨_, live, _⟩ | ⟨cleared, _⟩
    · simp [live.1] at free
    · apply generation_moved abstracted cleared
      · rw [free_count_space]
        have tail : ∀ index, freedTimes index ([one] ++ (middle ++ two :: back)) < 2 ^ 32 :=
          bounded_suffix bounded
        exact bounded_front (bounded_suffix tail) left.index
      · exact generation.trans resolves.2.symm

def stateAfter (build : Build) (op : TableOp) (table : CapabilityTable) : CapabilityTable :=
  (perform build op table).state?.getD table

theorem handle_temporal_safety_inserted_dropped :
    let capability : Capability := ⟨.send, .endpoint ⟨⟨3, 0⟩⟩⟩
    let inserted := stateAfter ⟨true⟩ (.insertRoot capability) new
    let dropped := stateAfter ⟨true⟩ (.capDrop ⟨0, 0⟩) inserted
    lookup ⟨0, 0⟩ inserted = .ok capability inserted ∧
      lookup ⟨0, 0⟩ dropped = .err .invalidHandle dropped := by
  intro capability inserted dropped
  refine ⟨rfl, ?_⟩
  have run : Run (TableStep ⟨true⟩) new
      ([] ++ ⟨new, ⟨.insertRoot capability, .ok (.handle ⟨0, 0⟩)⟩, inserted⟩ ::
        [⟨inserted, ⟨.capDrop ⟨0, 0⟩, .ok .done⟩, dropped⟩]) dropped :=
    .snoc (.snoc .nil rfl) rfl
  have bounded : ∀ index, freedTimes index
      ([] ++ ⟨new, ⟨.insertRoot capability, .ok (.handle ⟨0, 0⟩)⟩, inserted⟩ ::
        [⟨inserted, ⟨.capDrop ⟨0, 0⟩, .ok .done⟩, dropped⟩]) < 2 ^ 32 :=
    fun index => Nat.lt_of_le_of_lt List.countP_le_length (by decide)
  rcases (handle_temporal_safety run bounded).1 _ _ _ ⟨0, 0⟩ rfl rfl with ⟨_, _, _, ended⟩
  exact (ended ⟨_, List.mem_singleton.mpr rfl, ⟨_, rfl⟩, rfl⟩).1

/-! ## Completeness of revocation -/

/-- Revoking a source ends every handle obtained from it by a derivation followed by
further derivations and copies, whatever became of the handles in between, and no
later reuse of the slots brings one back. -/
theorem revocation_complete {build : Build} {src : CapHandle} {front back : TableTrace}
    {revocation : Transition CapabilityTable TableCall} {after : CapabilityTable}
    (run : Run (TableStep build) new (front ++ revocation :: back) after)
    (bounded : ∀ index, freedTimes index (front ++ revocation :: back) < 2 ^ 32)
    (revokes : revocation.label = ⟨.capRevoke src, .ok .done⟩) :
    ∀ handle ∈ derivedFrom src (front.map Transition.label),
      lookup handle after = .err .invalidHandle after := by
  intro handle member
  apply lookup_stale
  apply stale_of_space
  have abstracted := run_space_new run
  have spaceBounded : ∀ index,
      freeCount index (spaceTrace (front ++ revocation :: back)) < 2 ^ 32 := by
    intro index
    rw [free_count_space]
    exact bounded index
  rw [← space_trace_labels] at member
  simp only [spaceTrace, List.map_append, List.map_cons] at abstracted spaceBounded member
  apply family_revoked abstracted spaceBounded revokes
  simpa [spaceTrace] using member

def rootChildCopy : TableTrace :=
  let capability : Capability := ⟨⟨127⟩, .endpoint ⟨⟨3, 0⟩⟩⟩
  let inserted := stateAfter ⟨true⟩ (.insertRoot capability) new
  let derived := stateAfter ⟨true⟩ (.capDerive ⟨0, 0⟩ ⟨127⟩ capability.object) inserted
  let copied := stateAfter ⟨true⟩ (.capCopy ⟨1, 0⟩ .send) derived
  [⟨new, ⟨.insertRoot capability, .ok (.handle ⟨0, 0⟩)⟩, inserted⟩,
    ⟨inserted, ⟨.capDerive ⟨0, 0⟩ ⟨127⟩ capability.object, .ok (.handle ⟨1, 0⟩)⟩, derived⟩,
    ⟨derived, ⟨.capCopy ⟨1, 0⟩ .send, .ok (.handle ⟨2, 0⟩)⟩, copied⟩]

def tableWithCopy : CapabilityTable := (rootChildCopy.getLast?.map Transition.after).getD new

theorem root_child_copy_run : Run (TableStep ⟨true⟩) new rootChildCopy tableWithCopy :=
  .snoc (.snoc (.snoc .nil (by decide +kernel)) (by decide +kernel)) (by decide +kernel)

theorem revocation_complete_copy_of_child :
    lookup ⟨2, 0⟩ tableWithCopy = .ok ⟨.send, .endpoint ⟨⟨3, 0⟩⟩⟩ tableWithCopy ∧
      let revoked := stateAfter ⟨true⟩ (.capRevoke ⟨0, 0⟩) tableWithCopy
      lookup ⟨2, 0⟩ revoked = .err .invalidHandle revoked := by
  refine ⟨by decide +kernel, ?_⟩
  have run := Run.snoc root_child_copy_run (by decide +kernel :
    TableStep ⟨true⟩ tableWithCopy ⟨.capRevoke ⟨0, 0⟩, .ok .done⟩
      (stateAfter ⟨true⟩ (.capRevoke ⟨0, 0⟩) tableWithCopy))
  apply revocation_complete run _ rfl ⟨2, 0⟩
  · decide +kernel
  · exact fun index => Nat.lt_of_le_of_lt List.countP_le_length (by decide)

end Tyrne.CapTable
