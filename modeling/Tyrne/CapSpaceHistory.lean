import Mathlib.Algebra.Group.Nat.Defs
import Tyrne.CapSpace
import Tyrne.Lib.Runs

/-!
# Handles over the history of a space

How often an index has been cleared tells which of the handles issued for it is
the present one. While no index is cleared `2 ^ 32` times the generation counts
exactly that, so a handle stays good until the call that ends it and is dead
from then on, and what was derived below a source stays below it as long as
both are good.
-/

namespace Tyrne.CapSpace

open Tyrne.Lib.Runs
open Tyrne.Cap

set_option autoImplicit false

abbrev SpaceTrace : Type := List (Transition Space TableCall)

def Issues (call : TableCall) (handle : CapHandle) : Prop :=
  call.result = .ok (.handle handle)

/-- The call drops or takes the capability behind `handle`, or revokes one of its
ancestors. -/
def Ends (before : Space) (call : TableCall) (handle : CapHandle) : Prop :=
  (∃ reply, call.result = .ok reply) ∧
    match call.op with
    | .capDrop other => other = handle
    | .capTake other => other = handle
    | .capRevoke src =>
        (∃ held, before.Resolves handle held) ∧ before.Below src.index handle.index
    | _ => False

def Clears (index : Index) (taken : Transition Space TableCall) : Bool :=
  (taken.before.held index).isSome && (taken.after.held index).isNone

/-- How often a run cleared `index`. -/
def freeCount (index : Index) (trace : SpaceTrace) : Nat := trace.countP (Clears index)

theorem free_count_append (index : Index) (front back : SpaceTrace) :
    freeCount index (front ++ back) = freeCount index front + freeCount index back :=
  List.countP_append

theorem free_count_cons (index : Index) (taken : Transition Space TableCall)
    (rest : SpaceTrace) :
    freeCount index (taken :: rest) = freeCount index [taken] + freeCount index rest :=
  free_count_append index [taken] rest

/-! ## What one step does at one index -/

section Steps

variable {before after : Space} {call : TableCall}

/-- What a step can do at an index: nothing, place a capability there, or clear it. -/
inductive AtIndex (before : Space) (call : TableCall) (after : Space) (index : Index) :
    Prop where
  | kept (held : after.held index = before.held index)
      (generation : after.generation index = before.generation index)
  | placed (held : Held) (free : before.held index = none)
      (stored : after.held index = some held)
      (generation : after.generation index = before.generation index)
      (issues : Issues call ⟨index, before.generation index⟩)
  | cleared (held : Held) (stored : before.held index = some held)
      (gone : after.held index = none)
      (generation : after.generation index = before.generation index + 1)
      (ends : Ends before call ⟨index, before.generation index⟩)

theorem at_index_place (call : TableCall) {place : Index} (held : Held)
    (free : before.held place = none) (issues : Issues call ⟨place, before.generation place⟩)
    (index : Index) : AtIndex before call (before.place place held) index := by
  by_cases same : index = place
  · subst same
    exact .placed held free (by simp [Space.place]) rfl issues
  · exact .kept (by simp [Space.place, same]) rfl

theorem at_index_clear (call : TableCall) {cut : Set Index}
    (live : ∀ index ∈ cut, ∃ held, before.held index = some held)
    (ends : ∀ index ∈ cut, Ends before call ⟨index, before.generation index⟩)
    (index : Index) : AtIndex before call (before.clear cut) index := by
  by_cases member : index ∈ cut
  · rcases live index member with ⟨held, stored⟩
    exact .cleared held stored (by simp [Space.clear, member]) (by simp [Space.clear, member])
      (ends index member)
  · exact .kept (by simp [Space.clear, member]) (by simp [Space.clear, member])

theorem below_held {space : Space} {root index : Index} (below : space.Below root index) :
    ∃ held, space.held index = some held := by
  rcases Relation.TransGen.head'_iff.mp below with ⟨parent, link, _⟩
  cases stored : space.held index with
  | none => simp [Space.ParentOf, stored] at link
  | some held => exact ⟨held, rfl⟩

theorem at_index_remove (call : TableCall) {handle : CapHandle} {held : Held}
    (resolves : before.Resolves handle held) (ends : Ends before call handle)
    (index : Index) : AtIndex before call (before.clear {handle.index}) index := by
  apply at_index_clear
  · intro node member
    cases member
    exact ⟨held, resolves.1⟩
  · intro node member
    cases member
    rw [resolves.2]
    exact ends

theorem SpaceStep.at_index (step : SpaceStep before call after) (index : Index) :
    AtIndex before call after index := by
  cases step with
  | refused op error => exact .kept rfl rfl
  | rooted cap free =>
      apply at_index_place _ _ free
      rfl
  | copied resolves narrowed free =>
      apply at_index_place _ _ free
      rfl
  | derived resolves narrowed free =>
      apply at_index_place _ _ free
      rfl
  | revoked resolves allowed =>
      apply at_index_clear
      · intro node below
        exact below_held below
      · intro node below
        rcases below_held below with ⟨held, stored⟩
        exact ⟨⟨_, rfl⟩, ⟨held, stored, rfl⟩, below⟩
  | dropped resolves leaf => exact at_index_remove _ resolves ⟨⟨_, rfl⟩, rfl⟩ index
  | taken resolves leaf => exact at_index_remove _ resolves ⟨⟨_, rfl⟩, rfl⟩ index

theorem place_resolves (space : Space) (index : Index) (held : Held) :
    (space.place index held).Resolves ⟨index, space.generation index⟩ held :=
  ⟨by simp [Space.place], rfl⟩

/-- An issued handle names a free index at its present generation and resolves. -/
theorem SpaceStep.issued (step : SpaceStep before call after) {handle : CapHandle}
    (issues : Issues call handle) :
    before.held handle.index = none ∧ before.generation handle.index = handle.generation ∧
      ∃ held, after.Resolves handle held := by
  cases step with
  | refused op error => cases issues
  | revoked resolves allowed => cases issues
  | dropped resolves leaf => cases issues
  | taken resolves leaf => cases issues
  | rooted cap free =>
      cases issues
      exact ⟨free, rfl, _, place_resolves _ _ _⟩
  | copied resolves narrowed free =>
      cases issues
      exact ⟨free, rfl, _, place_resolves _ _ _⟩
  | derived resolves narrowed free =>
      cases issues
      exact ⟨free, rfl, _, place_resolves _ _ _⟩

theorem SpaceStep.ended (step : SpaceStep before call after) {handle : CapHandle}
    (ends : Ends before call handle) :
    (∃ held, before.Resolves handle held) ∧ after.held handle.index = none := by
  rcases ends with ⟨⟨reply, returned⟩, acts⟩
  cases step with
  | refused op error => cases returned
  | rooted cap free => cases acts
  | copied resolves narrowed free => cases acts
  | derived resolves narrowed free => cases acts
  | revoked resolves allowed => exact ⟨acts.1, by simp [Space.clear, acts.2]⟩
  | dropped resolves leaf =>
      cases acts
      exact ⟨⟨_, resolves⟩, by simp [Space.clear]⟩
  | taken resolves leaf =>
      cases acts
      exact ⟨⟨_, resolves⟩, by simp [Space.clear]⟩

theorem SpaceStep.issues_not_ends (step : SpaceStep before call after)
    {fresh handle : CapHandle} (issues : Issues call fresh) : ¬ Ends before call handle := by
  intro ends
  cases step with
  | refused op error => cases issues
  | rooted cap free => exact ends.2
  | copied resolves narrowed free => exact ends.2
  | derived resolves narrowed free => exact ends.2
  | revoked resolves allowed => cases issues
  | dropped resolves leaf => cases issues
  | taken resolves leaf => cases issues

end Steps

/-! ## Counting along a run -/

section Counting

variable {start after : Space} {trace : SpaceTrace}

theorem generation_counts (run : Run SpaceStep start trace after) (index : Index) :
    after.generation index =
      start.generation index + UInt32.ofNat (freeCount index trace) := by
  induction run with
  | nil => simp [freeCount]
  | @snoc earlier middle final label ran step ih =>
      rw [free_count_append]
      cases step.at_index index with
      | kept held generation =>
          have still : freeCount index [⟨middle, label, final⟩] = 0 := by
            cases stored : middle.held index <;> simp [freeCount, Clears, held, stored]
          rw [still, generation, ih, Nat.add_zero]
      | placed held free stored generation issues =>
          have still : freeCount index [⟨middle, label, final⟩] = 0 := by
            simp [freeCount, Clears, free]
          rw [still, generation, ih, Nat.add_zero]
      | cleared held stored gone generation ends =>
          have once : freeCount index [⟨middle, label, final⟩] = 1 := by
            simp [freeCount, Clears, stored, gone]
          rw [once, generation, ih, UInt32.ofNat_add, ← UInt32.add_assoc]
          rfl

theorem generation_moved (run : Run SpaceStep start trace after) {index : Index}
    (cleared : 0 < freeCount index trace) (bounded : freeCount index trace < 2 ^ 32) :
    after.generation index ≠ start.generation index := by
  intro same
  rw [generation_counts run index] at same
  have zero : UInt32.ofNat (freeCount index trace) = 0 := by simpa using same
  have value := congrArg UInt32.toNat zero
  rw [UInt32.toNat_ofNat_of_lt' (by simpa [UInt32.size] using bounded)] at value
  simp at value
  omega

/-- A handle that resolves at the start of a run either resolves to the same
capability at its end, with no call in between having ended it, or some call
ended it and its index was cleared. -/
theorem kept_or_ended (run : Run SpaceStep start trace after) {handle : CapHandle}
    {held : Held} (resolves : start.Resolves handle held) :
    (freeCount handle.index trace = 0 ∧ after.Resolves handle held ∧
        ∀ taken ∈ trace, ¬ Ends taken.before taken.label handle) ∨
      (0 < freeCount handle.index trace ∧
        ∃ taken ∈ trace, Ends taken.before taken.label handle) := by
  induction run with
  | nil => exact Or.inl ⟨rfl, resolves, by simp⟩
  | @snoc earlier middle final label ran step ih =>
      rw [free_count_append]
      rcases ih with ⟨uncleared, live, unended⟩ | ⟨cleared, taken, member, ends⟩
      · cases step.at_index handle.index with
        | kept same generation =>
            refine Or.inl ⟨?_, ⟨same.trans live.1, generation.trans live.2⟩, ?_⟩
            · have still : freeCount handle.index [⟨middle, label, final⟩] = 0 := by
                simp [freeCount, Clears, same, live.1]
              rw [uncleared, still]
            · intro taken member ends
              rcases List.mem_append.mp member with old | last
              · exact unended taken old ends
              · cases List.mem_singleton.mp last
                have gone := (step.ended ends).2
                simp [same, live.1] at gone
        | placed other free stored generation issues => simp [live.1] at free
        | cleared other stored gone generation ends =>
            refine Or.inr ⟨?_, ⟨middle, label, final⟩, by simp, ?_⟩
            · simp [freeCount, Clears, stored, gone]
            · rw [live.2] at ends
              exact ends
      · exact Or.inr ⟨by omega, taken, by simp [member], ends⟩

/-- The handle has been issued for its index: it is the present one, or the index
has been cleared since. -/
def Tracked (trace : SpaceTrace) (after : Space) (handle : CapHandle) : Prop :=
  handle.generation.toNat < freeCount handle.index trace ∨ ∃ held, after.Resolves handle held

def empty : Space where
  held := fun _ => none
  generation := fun _ => 0

theorem resolves_count (run : Run SpaceStep empty trace after) {handle : CapHandle}
    {held : Held} (bounded : freeCount handle.index trace < 2 ^ 32)
    (resolves : after.Resolves handle held) :
    handle.generation.toNat = freeCount handle.index trace := by
  have counted := generation_counts run handle.index
  rw [resolves.2] at counted
  rw [counted]
  simpa [empty, UInt32.toNat_ofNat] using bounded

theorem cleared_not_resolves (run : Run SpaceStep empty trace after) {handle : CapHandle}
    (bounded : freeCount handle.index trace < 2 ^ 32)
    (cleared : handle.generation.toNat < freeCount handle.index trace) (held : Held) :
    ¬ after.Resolves handle held := by
  intro resolves
  have count := resolves_count run bounded resolves
  omega

section Step

variable {middle : Space} {label : TableCall}
  (run : Run SpaceStep empty trace middle) (taken : SpaceStep middle label after)
include run taken

theorem Tracked.step {handle : CapHandle}
    (bounded : freeCount handle.index trace < 2 ^ 32) (tracked : Tracked trace middle handle) :
    Tracked (trace ++ [⟨middle, label, after⟩]) after handle := by
  unfold Tracked
  rw [free_count_append]
  rcases tracked with cleared | ⟨held, live⟩
  · exact Or.inl (by omega)
  · cases taken.at_index handle.index with
    | kept same generation =>
        exact Or.inr ⟨held, same.trans live.1, generation.trans live.2⟩
    | placed other free stored generation issues => simp [live.1] at free
    | cleared other stored gone generation ends =>
        have once : freeCount handle.index [⟨middle, label, after⟩] = 1 := by
          simp [freeCount, Clears, stored, gone]
        have count := resolves_count run bounded live
        exact Or.inl (by omega)

theorem Tracked.resolved_before {handle : CapHandle}
    (bounded : freeCount handle.index (trace ++ [⟨middle, label, after⟩]) < 2 ^ 32)
    (tracked : Tracked trace middle handle) {held : Held} (live : after.Resolves handle held) :
    ∃ held, middle.Resolves handle held := by
  rcases tracked with cleared | resolves
  · have count := resolves_count (.snoc run taken) bounded live
    rw [free_count_append] at count
    omega
  · exact resolves

end Step

end Counting

/-! ## Derivation families -/

def extendFamily (src : CapHandle) (family : List CapHandle) (call : TableCall) :
    List CapHandle :=
  match call.op, call.result with
  | .capDerive origin _ _, .ok (.handle handle) =>
      if origin = src ∨ origin ∈ family then handle :: family else family
  | .capCopy origin _, .ok (.handle handle) =>
      if origin ∈ family then handle :: family else family
  | _, _ => family

/-- All handles a sequence of calls obtained from `src` by at least one derivation. -/
def derivedFrom (src : CapHandle) (calls : List TableCall) : List CapHandle :=
  calls.foldl (extendFamily src) []

theorem below_transfer {space other : Space} {root index : Index}
    (below : space.Below root index)
    (carried : ∀ child parent, child = index ∨ space.Below child index →
      space.ParentOf child parent → other.ParentOf child parent) :
    other.Below root index := by
  unfold Space.Below at below ⊢
  induction below with
  | single link => exact .single (carried _ _ (Or.inl rfl) link)
  | tail path link ih => exact .tail ih (carried _ _ (Or.inr path) link)

section Families

variable {before after : Space} {call : TableCall}

theorem parent_of_place {place child parent : Index} {held : Held}
    (free : before.held place = none) (link : before.ParentOf child parent) :
    (before.place place held).ParentOf child parent := by
  have elsewhere : child ≠ place := by
    intro same
    subst same
    simp [Space.ParentOf, free] at link
  simpa [Space.ParentOf, Space.place, elsewhere] using link

theorem below_place {place root index : Index} {held : Held}
    (free : before.held place = none) (below : before.Below root index) :
    (before.place place held).Below root index :=
  below_transfer below fun _ _ _ link => parent_of_place free link

theorem parent_of_clear {cut : Set Index} {child parent : Index} (outside : child ∉ cut)
    (link : before.ParentOf child parent) : (before.clear cut).ParentOf child parent := by
  simpa [Space.ParentOf, Space.clear, outside] using link

theorem below_remove_leaf {gone root index : Index}
    (leaf : ∀ child, ¬ before.ParentOf child gone) (survives : index ≠ gone)
    (below : before.Below root index) : (before.clear {gone}).Below root index := by
  apply below_transfer below
  intro child parent onPath link
  apply parent_of_clear _ link
  intro same
  cases same
  rcases onPath with isEnd | above
  · exact survives isEnd.symm
  · rcases Relation.TransGen.tail'_iff.mp above with ⟨last, _, lastLink⟩
    exact leaf last lastLink

theorem below_revoke {top root index : Index} (survives : ¬ before.Below top index)
    (below : before.Below root index) :
    (before.clear { node | before.Below top node }).Below root index := by
  apply below_transfer below
  intro child parent onPath link
  apply parent_of_clear _ link
  intro cut
  rcases onPath with isEnd | above
  · subst isEnd
    exact survives cut
  · exact survives (Relation.TransGen.trans above cut)

theorem SpaceStep.below (step : SpaceStep before call after) {root index : Index}
    (survives : ∃ held, after.held index = some held) (below : before.Below root index) :
    after.Below root index := by
  rcases survives with ⟨held, stored⟩
  cases step with
  | refused op error => exact below
  | rooted cap free => exact below_place free below
  | copied resolves narrowed free => exact below_place free below
  | derived resolves narrowed free => exact below_place free below
  | revoked resolves allowed =>
      apply below_revoke _ below
      intro cut
      simp [Space.clear, cut] at stored
  | dropped resolves leaf =>
      apply below_remove_leaf leaf _ below
      intro same
      simp [Space.clear, same] at stored
  | taken resolves leaf =>
      apply below_remove_leaf leaf _ below
      intro same
      simp [Space.clear, same] at stored

end Families

/-- What holds of the family of `src` at the end of a run. -/
structure Family (src : CapHandle) (trace : SpaceTrace) (after : Space) : Prop where
  root : derivedFrom src (trace.map Transition.label) ≠ [] → Tracked trace after src
  members : ∀ handle ∈ derivedFrom src (trace.map Transition.label),
    Tracked trace after handle
  below : ∀ handle ∈ derivedFrom src (trace.map Transition.label), ∀ top bottom,
    after.Resolves src top → after.Resolves handle bottom →
      after.Below src.index handle.index

theorem extend_family_cases (src : CapHandle) (family : List CapHandle) {before after : Space}
    {call : TableCall} (step : SpaceStep before call after) :
    extendFamily src family call = family ∨
      ∃ handle origin held, extendFamily src family call = handle :: family ∧
        Issues call handle ∧ before.Resolves origin held ∧
        (origin = src ∨ origin ∈ family) ∧
        (after.ParentOf handle.index origin.index ∨
          (origin ∈ family ∧ ∀ parent, before.ParentOf origin.index parent →
            after.ParentOf handle.index parent)) := by
  cases step with
  | refused op error => exact Or.inl (by cases op <;> rfl)
  | rooted cap free => exact Or.inl rfl
  | revoked resolves allowed => exact Or.inl rfl
  | dropped resolves leaf => exact Or.inl rfl
  | taken resolves leaf => exact Or.inl rfl
  | @copied index origin held newRights resolves narrowed free =>
      by_cases member : origin ∈ family
      · refine Or.inr ⟨_, origin, held, if_pos member, rfl, resolves, Or.inr member,
          Or.inr ⟨member, ?_⟩⟩
        intro parent link
        simpa [Space.ParentOf, Space.place, resolves.1] using link
      · exact Or.inl (if_neg member)
  | @derived index origin held newRights newObject resolves narrowed free =>
      by_cases member : origin = src ∨ origin ∈ family
      · refine Or.inr ⟨_, origin, held, if_pos member, rfl, resolves, member, Or.inl ?_⟩
        simp [Space.ParentOf, Space.place]
      · exact Or.inl (if_neg member)

theorem below_of_sibling {before after : Space} {root origin index : Index}
    (below : before.Below root origin)
    (sibling : ∀ parent, before.ParentOf origin parent → after.ParentOf index parent)
    (carried : ∀ node, before.Below root node → after.Below root node) :
    after.Below root index := by
  rcases Relation.TransGen.head'_iff.mp below with ⟨parent, link, above⟩
  have first := sibling parent link
  rcases Relation.reflTransGen_iff_eq_or_transGen.mp above with same | further
  · subst same
    exact .single first
  · exact Relation.TransGen.head first (carried parent further)

theorem fresh_below {src fresh origin : CapHandle} {trace : SpaceTrace} {before after : Space}
    {call : TableCall} {held : Held} (family : Family src trace before)
    (step : SpaceStep before call after) (issues : Issues call fresh)
    (originLive : before.Resolves origin held)
    (known : origin = src ∨ origin ∈ derivedFrom src (trace.map Transition.label))
    (placed : after.ParentOf fresh.index origin.index ∨
      (origin ∈ derivedFrom src (trace.map Transition.label) ∧
        ∀ parent, before.ParentOf origin.index parent → after.ParentOf fresh.index parent))
    (srcLive : ∃ top, before.Resolves src top) : after.Below src.index fresh.index := by
  rcases srcLive with ⟨top, srcResolves⟩
  have carried : ∀ node, before.Below src.index node → after.Below src.index node := by
    intro node below
    apply step.below _ below
    rcases below_held below with ⟨stored, found⟩
    cases step.at_index node with
    | kept same generation => exact ⟨stored, same.trans found⟩
    | placed other free nowStored generation nodeIssues => exact ⟨other, nowStored⟩
    | cleared other nowStored gone generation ends =>
        exact absurd ends (step.issues_not_ends issues)
  have member_below (member : origin ∈ derivedFrom src (trace.map Transition.label)) :
      before.Below src.index origin.index :=
    family.below origin member top held srcResolves originLive
  rcases placed with child | ⟨member, sibling⟩
  · rcases known with isSrc | member
    · subst isSrc
      exact .single child
    · exact Relation.TransGen.head child (carried _ (member_below member))
  · exact below_of_sibling (member_below member) sibling carried

theorem derived_from_snoc (src : CapHandle) (earlier : SpaceTrace)
    (taken : Transition Space TableCall) :
    derivedFrom src ((earlier ++ [taken]).map Transition.label) =
      extendFamily src (derivedFrom src (earlier.map Transition.label)) taken.label := by
  simp [derivedFrom]

section FamilyStep

variable {src : CapHandle} {trace : SpaceTrace} {before after : Space} {call : TableCall}
  (run : Run SpaceStep empty trace before) (taken : SpaceStep before call after)
  (bounded : ∀ index, freeCount index (trace ++ [⟨before, call, after⟩]) < 2 ^ 32)
  (family : Family src trace before)
include run taken bounded family

theorem Family.old_below :
    ∀ handle ∈ derivedFrom src (trace.map Transition.label), ∀ top bottom,
      after.Resolves src top → after.Resolves handle bottom →
        after.Below src.index handle.index := by
  intro handle member top bottom srcLive live
  have rootTracked := family.root (List.ne_nil_of_mem member)
  rcases rootTracked.resolved_before run taken (bounded src.index) srcLive with ⟨_, srcBefore⟩
  rcases (family.members handle member).resolved_before run taken (bounded handle.index) live with
    ⟨_, liveBefore⟩
  exact taken.below ⟨bottom, live.1⟩ (family.below handle member _ _ srcBefore liveBefore)

theorem Family.step : Family src (trace ++ [⟨before, call, after⟩]) after := by
  have tracked : ∀ handle, Tracked trace before handle →
      Tracked (trace ++ [⟨before, call, after⟩]) after handle := by
    intro handle old
    have total := bounded handle.index
    rw [free_count_append] at total
    exact old.step run taken (by omega)
  have grown := derived_from_snoc src trace ⟨before, call, after⟩
  rcases extend_family_cases src (derivedFrom src (trace.map Transition.label)) taken with
    same | ⟨fresh, origin, held, added, issues, originLive, known, placed⟩
  · rw [same] at grown
    refine ⟨?_, ?_, ?_⟩ <;> rw [grown]
    · exact fun some => tracked src (family.root some)
    · exact fun handle member => tracked handle (family.members handle member)
    · exact family.old_below run taken bounded
  · rw [added] at grown
    have rootTracked : Tracked trace before src := by
      rcases known with isSrc | member
      · subst isSrc
        exact Or.inr ⟨held, originLive⟩
      · exact family.root (List.ne_nil_of_mem member)
    refine ⟨?_, ?_, ?_⟩ <;> rw [grown]
    · exact fun _ => tracked src rootTracked
    · intro handle member
      rcases List.mem_cons.mp member with isFresh | old
      · subst isFresh
        exact Or.inr (taken.issued issues).2.2
      · exact tracked handle (family.members handle old)
    · intro handle member top bottom srcLive live
      rcases List.mem_cons.mp member with isFresh | old
      · subst isFresh
        exact fresh_below family taken issues originLive known placed
          (rootTracked.resolved_before run taken (bounded src.index) srcLive)
      · exact family.old_below run taken bounded handle old top bottom srcLive live

end FamilyStep

theorem family_of_run {src : CapHandle} {trace : SpaceTrace} {after : Space}
    (run : Run SpaceStep empty trace after)
    (bounded : ∀ index, freeCount index trace < 2 ^ 32) : Family src trace after := by
  induction run with
  | nil => exact ⟨fun some => absurd rfl some, by simp [derivedFrom], by simp [derivedFrom]⟩
  | @snoc earlier middle final label ran step ih =>
      apply Family.step ran step bounded
      apply ih
      intro index
      have total := bounded index
      rw [free_count_append] at total
      omega

/-- A revoked source takes its whole family with it, for good: the members that
were still good are below the source and are cleared, and a cleared handle stays
dead however its index is reused. -/
theorem family_revoked {src : CapHandle} {front back : SpaceTrace}
    {revocation : Transition Space TableCall} {after : Space}
    (run : Run SpaceStep empty (front ++ revocation :: back) after)
    (bounded : ∀ index, freeCount index (front ++ revocation :: back) < 2 ^ 32)
    (revokes : revocation.label = ⟨.capRevoke src, .ok .done⟩) :
    ∀ handle ∈ derivedFrom src (front.map Transition.label), ∀ held,
      ¬ after.Resolves handle held := by
  intro handle member held
  rcases run_split run with ⟨middle, early, late⟩
  rcases run_cons late with ⟨same, step, _⟩
  have boundedFront : ∀ index, freeCount index front < 2 ^ 32 := by
    intro index
    have total := bounded index
    rw [free_count_append] at total
    omega
  have family := @family_of_run src _ _ early boundedFront
  apply cleared_not_resolves run (bounded handle.index)
  rw [free_count_append, free_count_cons]
  rcases family.members handle member with cleared | ⟨bottom, live⟩
  · omega
  · rw [revokes] at step
    generalize final : revocation.after = last at step
    cases step with
    | @revoked _ top resolves allowed =>
        have below := family.below handle member top bottom resolves live
        have once : freeCount handle.index [revocation] = 1 := by
          simp [freeCount, Clears, same, final, live.1, Space.clear, below]
        have count := resolves_count early (boundedFront handle.index) live
        omega

end Tyrne.CapSpace
